import TriMesh.MeshSpec

/-! # The catalog

The meshes with which a store can start: unit solids, markers and the parts of the axis gizmo, each
with its name and specification. -/

namespace TriMesh.Catalog

/-- Rings and segments of the built-in spheres. -/
def sphereResolution : Nat := 32

/-- Segments of the built-in cylinder and cone. -/
def defaultSegments : Nat := 32

/-- Segments of the axis gizmo. -/
def gizmoSegments : Nat := 16

/-- Segments of the selection tube. -/
def tubeSegments : Nat := 64

variable {α : Type} [Scalar α]

/-- A sphere of the built-in resolution. -/
def sphere (radius : α) : MeshSpec α :=
  .sphere ⟨radius, sphereResolution.toUInt32, sphereResolution.toUInt32⟩

/-- A cube with its texture repeated in proportion to its side. -/
def cube (side : α) : MeshSpec α := .box ⟨Vec3.splat side, Vec2.splat side⟩

/-- Every built-in mesh in order. -/
def entries : List (String × MeshSpec α) :=
  [("unit_plane", .plane Plane.unit),
   ("unit_sphere", sphere Scalar.half),
   ("joint_anchor", sphere (Scalar.ratio 1 100)),
   ("body_cg", cube (Scalar.ratio 14 1000)),
   ("unit_box", cube 1),
   ("unit_cylinder", .cylinder ⟨Scalar.half, 1, 1, defaultSegments.toUInt32⟩),
   ("unit_cone", .cone ⟨Scalar.half, 1, 5, defaultSegments.toUInt32⟩),
   ("unit_camera", .camera ⟨Scalar.half⟩),
   ("axis_shaft",
     .cylinder ⟨Scalar.ratio 1 100, Scalar.ratio 2 10, 1, gizmoSegments.toUInt32⟩),
   ("axis_head", .cone ⟨Scalar.ratio 2 100, Scalar.ratio 8 100, 1, gizmoSegments.toUInt32⟩),
   ("selection_tube",
     .tube ⟨1, Scalar.ratio 12 10, Scalar.ratio 1 100, 1, tubeSegments.toUInt32, Tube.fullArc⟩)]

/-- The names of the built-in meshes in order. -/
def names : List String := (entries : List (String × MeshSpec Float)).map (·.1)

end TriMesh.Catalog
