import TriMesh.Matrix
import TriMesh.SubMesh.Basic

/-! # Moving submeshes

Vertices are mapped as points. Normals are mapped by the inverse transpose, which keeps them
perpendicular to the surface under any linear map, and brought back to unit length. A shift
leaves normals alone. -/

namespace TriMesh.SubMesh

variable {α : Type} [Scalar α]

/-- All vertices moved by an offset. -/
def translate (s : SubMesh α) (offset : Vec3 α) : SubMesh α :=
  { s with vertices := s.vertices.map (· + offset) }

/-- The submesh under a map of space. -/
def transform (s : SubMesh α) (m : Mat4 α) : SubMesh α :=
  let forNormals := m.inverse.transpose
  { s with
    vertices := s.vertices.map m.mulPoint
    normals := s.normals.map fun n => (forNormals.mulDirection n).normalizeOrZero }

/-- Each axis scaled by its own factor. -/
def scale (s : SubMesh α) (factor : Vec3 α) : SubMesh α := s.transform (Mat4.scale factor)

end TriMesh.SubMesh
