import TriMesh.SubMesh.Basic

/-! # Boxes

Boxes around the origin. Each of the six faces has its own four vertices, so that it can carry one
flat normal (`Box`). The camera box has the same faces with normals toward the corners and no texture
(`Camera`). -/

namespace TriMesh

namespace BoxFace

/-- Signs of the eight corners of the cube around the origin. -/
def corner (i : Nat) : Int × Int × Int :=
  match i with
  | 0 => (-1, -1, -1)
  | 1 => (1, -1, -1)
  | 2 => (1, 1, -1)
  | 3 => (-1, 1, -1)
  | 4 => (-1, -1, 1)
  | 5 => (1, -1, 1)
  | 6 => (1, 1, 1)
  | _ => (-1, 1, 1)

/-- The six faces: four corners each, counter-clockwise seen from outside, and the outward axis. -/
def all : List (List Nat × (Int × Int × Int)) :=
  [([4, 5, 6, 7], (0, 0, 1)), ([0, 3, 2, 1], (0, 0, -1)), ([0, 1, 5, 4], (0, -1, 0)),
   ([2, 3, 7, 6], (0, 1, 0)), ([3, 0, 4, 7], (-1, 0, 0)), ([1, 2, 6, 5], (1, 0, 0))]

/-- Two triangles for each face over its own four vertices. -/
def triangles : List Triangle :=
  (List.range 6).flatMap fun face =>
    let v := 4 * face
    [⟨v, v + 1, v + 2⟩, ⟨v, v + 2, v + 3⟩]

variable {α : Type} [Scalar α]

/-- One, zero or minus one as a scalar. -/
def signScalar (s : Int) : α := if s < 0 then -1 else if 0 < s then 1 else 0

/-- Three signs as a vector. -/
def signVector (s : Int × Int × Int) : Vec3 α :=
  ⟨signScalar s.1, signScalar s.2.1, signScalar s.2.2⟩

/-- The twenty-four corners of all faces, face by face, on the cube of half extent one. -/
def directions : List (Vec3 α) :=
  all.flatMap fun face => face.1.map fun i => signVector (corner i)

/-- The texture coordinates of the four corners of every face. -/
def texcoords : List (Vec2 α) := [⟨0, 1⟩, ⟨1, 1⟩, ⟨1, 0⟩, ⟨0, 0⟩]

end BoxFace

/-- A box with sides along the axes, centered at the origin. -/
structure Box (α : Type) where
  /-- Full lengths of the sides. -/
  sides : Vec3 α
  /-- How often the texture repeats across each face. -/
  uv : Vec2 α
deriving Repr

namespace Box

variable {α : Type} [Scalar α]

/-- The cube with unit sides. -/
def unit : Box α := ⟨Vec3.splat 1, Vec2.splat 1⟩

/-- The box with one flat normal for each face. -/
def mesh (b : Box α) : SubMesh α :=
  let half := b.sides * (Scalar.half : α)
  { vertices := ((BoxFace.directions : List (Vec3 α)).map (·.mulEach half)).toArray
    normals := (BoxFace.all.flatMap fun face =>
      List.replicate 4 (BoxFace.signVector face.2 : Vec3 α)).toArray
    texcoords := (BoxFace.all.flatMap fun _ =>
      (BoxFace.texcoords : List (Vec2 α)).map (·.mulEach b.uv)).toArray
    indices := (Triangle.flatten BoxFace.triangles).toArray }

end Box

/-- The box that stands for a camera. -/
structure Camera (α : Type) where
  /-- Half of each side. -/
  scale : α
deriving Repr

namespace Camera

variable {α : Type} [Scalar α]

/-- The box with normals toward its corners. -/
def mesh (c : Camera α) : SubMesh α :=
  let corners : List (Vec3 α) := BoxFace.directions
  { vertices := (corners.map fun d : Vec3 α => d * c.scale).toArray
    normals := (corners.map Vec3.normalize).toArray
    indices := (Triangle.flatten BoxFace.triangles).toArray }

end Camera

end TriMesh
