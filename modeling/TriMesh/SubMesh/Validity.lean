import TriMesh.SubMesh.Basic
import TriMesh.Tolerance

/-! # Well-formed submeshes

A well-formed submesh has whole triangles, indices that name vertices, and normals and texture
coordinates either absent or one for each vertex. `validate` reports the first broken rule, in that
order. Triangles without area are allowed; they are counted. -/

namespace TriMesh.SubMesh

variable {α : Type}

/-- The first index that names no vertex. -/
def firstDanglingIndex? (s : SubMesh α) : Option Nat :=
  s.indices.toList.find? (s.vertexCount ≤ ·)

/-- The first broken rule of a well-formed submesh, if there is one. -/
def fault? (s : SubMesh α) : Option MeshError :=
  if s.indexCount % 3 ≠ 0 then some (.invalidMesh (.partialTriangle s.indexCount))
  else
    match s.firstDanglingIndex? with
    | some i => some (.indexOutOfRange .vertex i s.vertexCount)
    | none =>
      if s.normalCount ≠ 0 ∧ s.normalCount ≠ s.vertexCount then
        some (.invalidMesh (.normalCount s.normalCount s.vertexCount))
      else if s.texcoordCount ≠ 0 ∧ s.texcoordCount ≠ s.vertexCount then
        some (.invalidMesh (.texcoordCount s.texcoordCount s.vertexCount))
      else none

/-- The submesh is well formed, or the first rule that it breaks. -/
def validate (s : SubMesh α) : Except MeshError Unit :=
  match s.fault? with
  | some e => .error e
  | none => .ok ()

variable [Scalar α]

/-- The face of three points: its direction is the side from which they run counter-clockwise, its
length twice the area. -/
def faceVector (a b c : Vec3 α) : Vec3 α := (b - a).cross (c - a)

/-- The triangle has vertices and no area to speak of. -/
def isDegenerate (s : SubMesh α) (t : Triangle) : Bool :=
  match s.corners? t with
  | some (a, b, c) => (faceVector a b c).length < Tolerance.degenerateArea
  | none => false

/-- Number of triangles without area. -/
def degenerateTriangleCount (s : SubMesh α) : Nat := s.triangles.countP s.isDegenerate

end TriMesh.SubMesh
