/-! # Triangles by index

A triangle names three entries of a vertex list. A flat index list holds its triangles one after
the other; what is left over at its end is no triangle. -/

namespace TriMesh

/-- Three vertex indices, in winding order. -/
structure Triangle where
  /-- First corner. -/
  a : Nat
  /-- Second corner. -/
  b : Nat
  /-- Third corner. -/
  c : Nat
deriving DecidableEq, Repr, Inhabited

namespace Triangle

/-- The three indices. -/
def toList (t : Triangle) : List Nat := [t.a, t.b, t.c]

/-- All indices moved up by an offset. -/
def shift (t : Triangle) (offset : Nat) : Triangle := ⟨t.a + offset, t.b + offset, t.c + offset⟩

/-- The same corners the other way round. -/
def flip (t : Triangle) : Triangle := ⟨t.a, t.c, t.b⟩

/-- The flat index list of some triangles. -/
def flatten (ts : List Triangle) : List Nat := ts.flatMap toList

/-- The complete triangles of a flat index list. -/
def ofIndices : List Nat → List Triangle
  | a :: b :: c :: rest => ⟨a, b, c⟩ :: ofIndices rest
  | _ => []

/-- The last two corners of every complete triangle exchanged, the rest kept. -/
def reverseWinding : List Nat → List Nat
  | a :: b :: c :: rest => a :: c :: b :: reverseWinding rest
  | rest => rest

@[simp] theorem flatten_nil : flatten [] = [] := rfl

@[simp] theorem flatten_cons (t : Triangle) (ts : List Triangle) :
    flatten (t :: ts) = t.a :: t.b :: t.c :: flatten ts := rfl

@[simp] theorem flatten_append (ts us : List Triangle) :
    flatten (ts ++ us) = flatten ts ++ flatten us := by
  simp [flatten]

/-- A flat list of triangles has exactly those triangles. -/
@[simp] theorem ofIndices_flatten (ts : List Triangle) : ofIndices (flatten ts) = ts := by
  induction ts with
  | nil => rfl
  | cons t ts ih => simp [ofIndices, ih]

@[simp] theorem length_flatten (ts : List Triangle) : (flatten ts).length = 3 * ts.length := by
  induction ts with
  | nil => rfl
  | cons t ts ih => simp [ih]; omega

end Triangle

end TriMesh
