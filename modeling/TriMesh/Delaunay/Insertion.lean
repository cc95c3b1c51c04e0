import TriMesh.Delaunay.Faces

/-! # Triangulating points

Some triangulation of the convex hull of points, which are taken in the order given. As long as they
lie on one line there is no triangle. The first point off the line is joined to all of its parts. A
later point takes the place of the triangles that it lies in or on, or else is joined to the border
edges that it sees. -/

namespace TriMesh.Delaunay

/-- The triangulated hull of the points taken so far. -/
structure Hull where
  /-- The points in order along their line, as long as they lie on one. -/
  line : List Nat := []
  /-- The triangles. -/
  faces : Faces := []
  /-- The edges without a triangle on their right; they run counter-clockwise around the hull. -/
  border : List Arrow := []

namespace Hull

variable (place : Nat → ExactPoint)

/-- The point is joined to every part of a line on whose left it lies. -/
def fan (line : List Nat) (r : Nat) : Hull :=
  let parts := List.zip line line.tail
  match line.head?, line.getLast? with
  | some first, some last =>
    { faces := parts.map fun e => ⟨r, e.1, e.2⟩
      border := parts ++ [(last, r), (r, first)] }
  | _, _ => {}

/-- One more point put in its place on the line. -/
def extendLine (line : List Nat) (r : Nat) : List Nat :=
  let (before, after) := line.partition fun i => ExactPoint.precedes (place i) (place r)
  before ++ r :: after

/-- One more point while there is no triangle. -/
def addToLine (line : List Nat) (r : Nat) : Hull :=
  let side :=
    match line.head?, line.getLast? with
    | some first, some last => ExactPoint.turn (place first) (place last) (place r)
    | _, _ => 0
  if 0 < side then fan line r
  else if side < 0 then fan line.reverse r
  else { line := extendLine place line r }

/-- The point lies in the triangle or on its edge. -/
def covers (r : Nat) (t : Triangle) : Bool :=
  (arrows t).all fun e => 0 ≤ ExactPoint.turn (place e.1) (place e.2) (place r)

/-- One more point inside the hull or on its border, in the place of the triangles that cover it. -/
def addInside (h : Hull) (covering : Faces) (r : Nat) : Hull :=
  let seen := (rim covering).filter fun e =>
    0 < ExactPoint.turn (place e.1) (place e.2) (place r)
  { h with
    faces := h.faces.filter (!covering.contains ·) ++ seen.map fun e => ⟨r, e.1, e.2⟩
    border := h.border.flatMap fun e =>
      if ExactPoint.between (place e.1) (place e.2) (place r) then [(e.1, r), (r, e.2)] else [e] }

/-- One more point outside the hull, joined to every border edge that it sees. -/
def addOutside (h : Hull) (r : Nat) : Hull :=
  let (seen, rest) := h.border.partition fun e =>
    ExactPoint.turn (place e.1) (place e.2) (place r) < 0
  let into := (seen.filter fun e => !seen.any fun f => f.2 = e.1).map fun e => (e.1, r)
  let out := (seen.filter fun e => !seen.any fun f => f.1 = e.2).map fun e => (r, e.2)
  { h with
    faces := h.faces ++ seen.map fun e => ⟨r, e.2, e.1⟩
    border := rest ++ into ++ out }

/-- One more point. -/
def add (h : Hull) (r : Nat) : Hull :=
  if h.faces.isEmpty then addToLine place h.line r
  else
    match h.faces.filter (covers place r) with
    | [] => h.addOutside place r
    | covering => h.addInside place covering r

end Hull

/-- Some triangulation of the convex hull of the first `count` points. -/
def triangulatePoints (place : Nat → ExactPoint) (count : Nat) : Faces :=
  ((List.range count).foldl (Hull.add place) {}).faces

end TriMesh.Delaunay
