import TriMesh.SubMesh.Normals
import TriMesh.SubMesh.Transform

/-! # Meshes

A mesh is a name with a list of submeshes. Operations on a mesh act on each submesh; counts add up,
and the bounding box is the box around all boxes, with the origin standing in for a mesh without
vertices. -/

namespace TriMesh

/-- A named list of submeshes. -/
structure Mesh (α : Type) where
  /-- The name under which a store keeps the mesh. -/
  name : String := ""
  /-- The batches, in order. -/
  submeshes : Array (SubMesh α) := #[]
deriving Repr, Inhabited

namespace Mesh

variable {α : Type}

/-- A mesh without submeshes. -/
def empty (name : String) : Mesh α := { name }

/-- A mesh with one submesh. -/
def ofSubMesh (name : String) (s : SubMesh α) : Mesh α := { name, submeshes := #[s] }

/-- The same geometry under another name. -/
def rename (m : Mesh α) (name : String) : Mesh α := { m with name }

/-- One more submesh; its index is the number of submeshes before. -/
def addSubMesh (m : Mesh α) (s : SubMesh α) : Mesh α := { m with submeshes := m.submeshes.push s }

/-- The submesh at an index. -/
def submesh (m : Mesh α) (i : Nat) : Except MeshError (SubMesh α) :=
  SubMesh.entry .submesh m.submeshes i

/-- The submesh at an index replaced, if there is one. -/
def setSubMesh (m : Mesh α) (i : Nat) (s : SubMesh α) : Mesh α :=
  { m with submeshes := m.submeshes.setIfInBounds i s }

/-- The submeshes of another mesh added behind those of `m`, which keeps its name. -/
def merge (m other : Mesh α) : Mesh α := { m with submeshes := m.submeshes ++ other.submeshes }

/-! ### Counts -/

/-- Number of submeshes. -/
def submeshCount (m : Mesh α) : Nat := m.submeshes.size

/-- A count added up over all submeshes. -/
def total (m : Mesh α) (count : SubMesh α → Nat) : Nat :=
  m.submeshes.foldl (fun n s => n + count s) 0

/-- Number of vertices of all submeshes. -/
def vertexCount (m : Mesh α) : Nat := m.total SubMesh.vertexCount

/-- Number of indices of all submeshes. -/
def indexCount (m : Mesh α) : Nat := m.total SubMesh.indexCount

/-- Number of complete triangles of all submeshes. -/
def triangleCount (m : Mesh α) : Nat := m.total SubMesh.triangleCount

/-- No submesh has a vertex. -/
def isEmpty (m : Mesh α) : Bool := m.submeshes.all SubMesh.isEmpty

/-- All submeshes are well formed, or the first broken rule of the first that is not. -/
def validate (m : Mesh α) : Except MeshError Unit := m.submeshes.forM SubMesh.validate

/-! ### Geometry -/

variable [Scalar α]

/-- Names equal and submeshes equal in order. -/
instance : BEq (Mesh α) := ⟨fun m n => m.name == n.name && m.submeshes == n.submeshes⟩

/-- The box around two boxes. -/
def joinBoxes (a b : Vec3 α × Vec3 α) : Vec3 α × Vec3 α := (a.1.min b.1, a.2.max b.2)

/-- Least and greatest corner of the box around all vertices, the origin twice if there is none. -/
def boundingBox (m : Mesh α) : Vec3 α × Vec3 α :=
  match m.submeshes.toList.filterMap SubMesh.boundingBox with
  | [] => (0, 0)
  | box :: boxes => boxes.foldl joinBoxes box

/-- The middle of the bounding box. -/
def center (m : Mesh α) : Vec3 α := (m.boundingBox.1 + m.boundingBox.2) * (Scalar.half : α)

/-- Every submesh changed by the same function. -/
def mapSubMeshes (m : Mesh α) (f : SubMesh α → SubMesh α) : Mesh α :=
  { m with submeshes := m.submeshes.map f }

/-- Normals of every submesh made anew from its faces. -/
def recalculateNormals (m : Mesh α) : Mesh α := m.mapSubMeshes SubMesh.recalculateNormals

/-- Every submesh under a map of space. -/
def transform (m : Mesh α) (t : Mat4 α) : Mesh α := m.mapSubMeshes (·.transform t)

/-- Every submesh moved by an offset. -/
def translate (m : Mesh α) (offset : Vec3 α) : Mesh α := m.mapSubMeshes (·.translate offset)

end Mesh

end TriMesh
