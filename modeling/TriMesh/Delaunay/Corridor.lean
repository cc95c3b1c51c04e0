import TriMesh.Delaunay.Faces

/-! # Forcing segments

A segment becomes an edge of a triangulation: the triangles that it runs through are taken away, and
the holes on its two sides are filled again from their corners. No corner may lie on the segment
between its ends. -/

namespace TriMesh.Delaunay

/-- What a segment runs through. -/
structure Corridor where
  /-- The triangles crossed. -/
  crossed : Faces := []
  /-- Their corners on the left, in order. -/
  left : List Nat := []
  /-- Their corners on the right, in order. -/
  right : List Nat := []

variable (place : Nat → ExactPoint)

/-- The corridor continued over the edge from `r` on its right to `l` on its left, up to `v`; `fuel`
bounds the number of triangles. -/
def Corridor.walk (faces : Faces) (u v : Nat) : Nat → Arrow → Corridor → Corridor
  | 0, _, c => c
  | fuel + 1, (r, l), c =>
    match faces.findSome? fun t => (apexOf (l, r) t).map (t, ·) with
    | none => c
    | some (t, w) =>
      let c := { c with crossed := t :: c.crossed }
      if w = v then c
      else if 0 < ExactPoint.turn (place u) (place v) (place w) then
        walk faces u v fuel (r, w) { c with left := c.left ++ [w] }
      else walk faces u v fuel (w, l) { c with right := c.right ++ [w] }

/-- The triangle at `u` through which the segment to `v` leaves, with the edge that it crosses. -/
def leavingEdge? (u v : Nat) (t : Triangle) : Option (Triangle × Arrow) :=
  (arrows t).findSome? fun e =>
    if apexOf e t = some u ∧
        ExactPoint.crosses (place u) (place v) (place e.1) (place e.2) then some (t, e)
    else none

/-- The corridor of the segment from `u` to `v`, if it crosses any triangle. -/
def corridor? (faces : Faces) (u v : Nat) : Option Corridor := do
  let (t, (r, l)) ← faces.findSome? (leavingEdge? place u v)
  return Corridor.walk place faces u v faces.length (r, l)
    { crossed := [t], left := [l], right := [r] }

/-- The corner of a hole for the triangle over its base from `a` to `b`: the circle through the three
has no other corner inside. -/
def fillApex (a b first : Nat) (rest : List Nat) : Nat :=
  rest.foldl
    (fun c x =>
      if 0 < ExactPoint.inCircle (place a) (place b) (place c) (place x) then x else c) first

/-- Triangles for the hole between the base from `a` to `b` and a chain of corners on its left, given
from `a` to `b`; `fuel` exceeds the length of the chain. -/
def fill : Nat → Nat → Nat → List Nat → Faces
  | 0, _, _, _ => []
  | _, _, _, [] => []
  | fuel + 1, a, b, first :: rest =>
    let c := fillApex place a b first rest
    let before := (first :: rest).takeWhile (· ≠ c)
    let after := ((first :: rest).dropWhile (· ≠ c)).drop 1
    ⟨a, b, c⟩ :: (fill fuel a c before ++ fill fuel c b after)

/-- The triangulation with the segment from `u` to `v` among its edges. -/
def force (faces : Faces) (segment : Arrow) : Faces :=
  let (u, v) := segment
  if (apex? faces (u, v)).isSome || (apex? faces (v, u)).isSome then faces
  else
    match corridor? place faces u v with
    | none => faces
    | some c =>
      faces.filter (!c.crossed.contains ·) ++
        fill place (c.left.length + 1) u v c.left ++
        fill place (c.right.length + 1) v u c.right.reverse

end TriMesh.Delaunay
