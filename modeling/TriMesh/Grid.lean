import TriMesh.SubMesh.Basic

/-! # Grids

Triangles over a rectangular grid of vertices, given row by row. Each cell between two rows and two
columns becomes two triangles that share a diagonal: on the front the rising one, on the back the
falling one.

* **Front** runs counter-clockwise seen with columns to the right and rows upward.
* **Back** takes the rows from the other end, which turns every cell over.
* A grid narrower than two in either direction has no cells. -/

namespace TriMesh

/-- The sides of a grid that get triangles. -/
inductive GridFaces where
  | front
  | back
  | both
deriving DecidableEq, Repr

namespace Grid

/-- The position of a vertex in a grid of the given width. -/
def vertex (width row col : Nat) : Nat := row * width + col

/-- The two triangles of the cell between the rows `far` and `near` to the right of a column. -/
def cell (width far near col : Nat) : List Triangle :=
  [⟨vertex width far col, vertex width near col, vertex width far (col + 1)⟩,
   ⟨vertex width far (col + 1), vertex width near col, vertex width near (col + 1)⟩]

/-- The front triangles of a grid, lowest row first. -/
def front (width height : Nat) : List Triangle :=
  (List.range (height - 1)).flatMap fun row =>
    (List.range (width - 1)).flatMap fun col => cell width (row + 1) row col

/-- The back triangles of a grid, highest row first. -/
def back (width height : Nat) : List Triangle :=
  (List.range (height - 1)).reverse.flatMap fun row =>
    (List.range (width - 1)).flatMap fun col => cell width row (row + 1) col

/-- The triangles of the chosen sides. -/
def triangles (faces : GridFaces) (width height : Nat) : List Triangle :=
  match faces with
  | .front => front width height
  | .back => back width height
  | .both => front width height ++ back width height

end Grid

/-- The triangles of a grid whose first vertex is `first`. -/
def SubMesh.addGrid {α : Type} (s : SubMesh α) (first width height : Nat) (faces : GridFaces) :
    SubMesh α :=
  s.addTriangles ((Grid.triangles faces width height).map (·.shift first))

end TriMesh
