import TriMesh.SubMesh.Validity

/-! # Triangles that face a given way

A triangle is turned so that its face does not point against a given direction, and a flat quad is
built from two such triangles. A triangle with a missing vertex is left as it is. -/

namespace TriMesh

variable {α : Type} [Scalar α]

/-- The triangle, turned over if its face points against `facing`. -/
def SubMesh.orient (s : SubMesh α) (t : Triangle) (facing : Vec3 α) : Triangle :=
  match s.corners? t with
  | some (a, b, c) => if 0 ≤ (SubMesh.faceVector a b c).dot facing then t else t.flip
  | none => t

/-- One more triangle, turned to face the given way. -/
def SubMesh.addFacing (s : SubMesh α) (t : Triangle) (facing : Vec3 α) : SubMesh α :=
  s.addTriangle (s.orient t facing)

/-- Four things in the order of a quad's perimeter. -/
structure Quad (β : Type) where
  /-- At the first corner. -/
  first : β
  /-- At the second corner. -/
  second : β
  /-- At the third corner. -/
  third : β
  /-- At the fourth corner. -/
  fourth : β
deriving Repr, Inhabited

/-- The four things in order. -/
def Quad.toArray {β : Type} (q : Quad β) : Array β := #[q.first, q.second, q.third, q.fourth]

/-- A flat quad with the normal `facing`, turned that way. -/
def Quad.mesh (corners : Quad (Vec3 α)) (uvs : Quad (Vec2 α)) (facing : Vec3 α) : SubMesh α :=
  let bare : SubMesh α :=
    { vertices := corners.toArray
      normals := Array.replicate 4 facing
      texcoords := uvs.toArray }
  (bare.addFacing ⟨0, 1, 2⟩ facing).addFacing ⟨0, 2, 3⟩ facing

end TriMesh
