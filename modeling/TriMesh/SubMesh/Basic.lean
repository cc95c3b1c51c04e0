import TriMesh.Error
import TriMesh.Triangle
import TriMesh.Vector

/-! # Submeshes

One batch of geometry: vertices, normals, texture coordinates and a flat list of vertex indices,
three to a triangle, counter-clockwise seen from outside.

* **Order.** A vertex is named by its position among the vertices, so the order of insertion is
  part of the value. Indices may be added before the vertices that they name.
* **Composition.** `append` puts one submesh behind another and moves its indices up. Every
  generator is a chain of `append`s of small pieces that count their vertices from zero.
* **Checked access** answers `indexOutOfRange` with the buffer, the index and the length. -/

namespace TriMesh

/-- One batch of geometry. -/
structure SubMesh (α : Type) where
  /-- Corner positions. -/
  vertices : Array (Vec3 α) := #[]
  /-- Corner normals: none, or one for each vertex. -/
  normals : Array (Vec3 α) := #[]
  /-- Texture coordinates: none, or one for each vertex. -/
  texcoords : Array (Vec2 α) := #[]
  /-- Vertex indices, three to a triangle. -/
  indices : Array Nat := #[]
deriving Repr, Inhabited

namespace SubMesh

variable {α : Type}

/-- The submesh without anything. -/
def empty : SubMesh α := {}

/-! ### Counts -/

/-- Number of vertices. -/
def vertexCount (s : SubMesh α) : Nat := s.vertices.size

/-- Number of normals. -/
def normalCount (s : SubMesh α) : Nat := s.normals.size

/-- Number of texture coordinates. -/
def texcoordCount (s : SubMesh α) : Nat := s.texcoords.size

/-- Number of indices. -/
def indexCount (s : SubMesh α) : Nat := s.indices.size

/-- Number of complete triangles. -/
def triangleCount (s : SubMesh α) : Nat := s.indices.size / 3

/-- There is no vertex. -/
def isEmpty (s : SubMesh α) : Bool := s.vertices.isEmpty

/-- The complete triangles, in order. -/
def triangles (s : SubMesh α) : List Triangle := Triangle.ofIndices s.indices.toList

/-- Buffers compared entry by entry, scalars as scalars are. -/
instance [Scalar α] : BEq (SubMesh α) :=
  ⟨fun s t => s.vertices == t.vertices && s.normals == t.normals && s.texcoords == t.texcoords &&
    s.indices == t.indices⟩

/-! ### Growth -/

/-- One more vertex; its index is the number of vertices before. -/
def addVertex (s : SubMesh α) (p : Vec3 α) : SubMesh α := { s with vertices := s.vertices.push p }

/-- One more normal. -/
def addNormal (s : SubMesh α) (n : Vec3 α) : SubMesh α := { s with normals := s.normals.push n }

/-- One more texture coordinate. -/
def addTexcoord (s : SubMesh α) (uv : Vec2 α) : SubMesh α :=
  { s with texcoords := s.texcoords.push uv }

/-- One more index. -/
def addIndex (s : SubMesh α) (i : Nat) : SubMesh α := { s with indices := s.indices.push i }

/-- More triangles. -/
def addTriangles (s : SubMesh α) (ts : List Triangle) : SubMesh α :=
  { s with indices := s.indices ++ Triangle.flatten ts }

/-- One more triangle. -/
def addTriangle (s : SubMesh α) (t : Triangle) : SubMesh α := s.addTriangles [t]

/-- All of `other` behind `s`, its indices moved up by the vertices of `s`. -/
def append (s other : SubMesh α) : SubMesh α where
  vertices := s.vertices ++ other.vertices
  normals := s.normals ++ other.normals
  texcoords := s.texcoords ++ other.texcoords
  indices := s.indices ++ other.indices.map (· + s.vertexCount)

instance : Append (SubMesh α) := ⟨append⟩

/-- Every triangle from position `first` of the index list onward the other way round. -/
def reverseWindingFrom (s : SubMesh α) (first : Nat) : SubMesh α :=
  { s with
    indices :=
      s.indices.extract 0 first ++
        Triangle.reverseWinding (s.indices.extract first s.indices.size).toList }

/-! ### Checked access -/

/-- The entry of a buffer, or an error that names the buffer. -/
def entry {β : Type} (buffer : BufferKind) (xs : Array β) (i : Nat) : Except MeshError β :=
  match xs[i]? with
  | some x => .ok x
  | none => .error (.indexOutOfRange buffer i xs.size)

/-- The vertex at an index. -/
def vertex (s : SubMesh α) (i : Nat) : Except MeshError (Vec3 α) := entry .vertex s.vertices i

/-- The normal at an index. -/
def normal (s : SubMesh α) (i : Nat) : Except MeshError (Vec3 α) := entry .normal s.normals i

/-- The texture coordinate at an index. -/
def texcoord (s : SubMesh α) (i : Nat) : Except MeshError (Vec2 α) :=
  entry .texcoord s.texcoords i

/-- The index at a position of the index list. -/
def index (s : SubMesh α) (i : Nat) : Except MeshError Nat := entry .index s.indices i

/-- The normal at an index replaced. -/
def setNormal (s : SubMesh α) (i : Nat) (n : Vec3 α) : Except MeshError (SubMesh α) :=
  (s.normal i).map fun _ => { s with normals := s.normals.setIfInBounds i n }

/-- The positions of a triangle's corners, if all three vertices exist. -/
def corners? (s : SubMesh α) (t : Triangle) : Option (Vec3 α × Vec3 α × Vec3 α) := do
  return (← s.vertices[t.a]?, ← s.vertices[t.b]?, ← s.vertices[t.c]?)

/-! ### Extent -/

variable [Scalar α]

/-- Least and greatest corner of the box around all vertices. -/
def boundingBox (s : SubMesh α) : Option (Vec3 α × Vec3 α) :=
  match s.vertices.toList with
  | [] => none
  | v :: vs => some (vs.foldl (fun box p => (box.1.min p, box.2.max p)) (v, v))

end SubMesh

end TriMesh
