import TriMesh.SubMesh.Basic

/-! # Single-precision buffers

The buffers of a submesh as flat lists of single-precision numbers, ready for upload. Each number is
given as the double that has its value. -/

namespace TriMesh

/-- A double rounded to single precision. -/
def toSingle (x : Float) : Float := x.toFloat32.toFloat

namespace SubMesh

/-- Components of the vertices in single precision. -/
def verticesSingle (s : SubMesh Float) : List Float :=
  s.vertices.toList.flatMap fun v => [v.x, v.y, v.z].map toSingle

/-- Components of the normals in single precision. -/
def normalsSingle (s : SubMesh Float) : List Float :=
  s.normals.toList.flatMap fun v => [v.x, v.y, v.z].map toSingle

/-- Components of the texture coordinates in single precision. -/
def texcoordsSingle (s : SubMesh Float) : List Float :=
  s.texcoords.toList.flatMap fun v => [v.x, v.y].map toSingle

end SubMesh

end TriMesh
