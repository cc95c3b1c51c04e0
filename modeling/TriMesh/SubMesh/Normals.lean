import TriMesh.SubMesh.Validity

/-! # Normals from faces

Two ways to make normals. `recalculateNormals` gives each vertex the mean direction of the faces
around it and forgets every earlier normal; `flattenCornerNormals` gives the three corners of each
face their mean. Triangles that name a missing entry are passed over by both. -/

namespace TriMesh.SubMesh

variable {α : Type} [Scalar α]

/-- The unit normal of a triangle, or zero if it has no area. -/
def unitFace (corners : Vec3 α × Vec3 α × Vec3 α) : Vec3 α :=
  (faceVector corners.1 corners.2.1 corners.2.2).normalizeOrZero

/-- A vector added to the entries of a triangle's corners, in order. -/
def accumulate (sums : Array (Vec3 α)) (t : Triangle) (face : Vec3 α) : Array (Vec3 α) :=
  t.toList.foldl (fun sums i => sums.modify i (· + face)) sums

/-- For each vertex the sum of the unit normals of its triangles, in triangle order. -/
def faceSums (s : SubMesh α) : Array (Vec3 α) :=
  s.triangles.foldl
    (fun sums t =>
      match s.corners? t with
      | some corners => accumulate sums t (unitFace corners)
      | none => sums)
    (Array.replicate s.vertexCount 0)

/-- One normal for each vertex: the direction of the sum of the unit normals around it. -/
def recalculateNormals (s : SubMesh α) : SubMesh α :=
  { s with normals := s.faceSums.map Vec3.normalizeOrZero }

/-- The three normals of a triangle replaced by their mean direction. -/
def flattenCorner (normals : Array (Vec3 α)) (t : Triangle) : Array (Vec3 α) :=
  match normals[t.a]?, normals[t.b]?, normals[t.c]? with
  | some na, some nb, some nc =>
    let flat := (Vec3.sum [na, nb, nc] / (Scalar.three : α)).normalizeOrZero
    t.toList.foldl (fun normals i => normals.setIfInBounds i flat) normals
  | _, _, _ => normals

/-- Every triangle in turn gives its corners their mean normal; where triangles share a vertex the
last one decides. -/
def flattenCornerNormals (s : SubMesh α) : SubMesh α :=
  { s with normals := s.triangles.foldl flattenCorner s.normals }

end TriMesh.SubMesh
