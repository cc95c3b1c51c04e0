import TriMesh.Extrusion
import TriMesh.Mesh
import TriMesh.Primitive.Box
import TriMesh.Primitive.Cone
import TriMesh.Primitive.Plane
import TriMesh.Primitive.Sphere
import TriMesh.Primitive.Tube

/-! # Mesh specifications

A generator together with its parameters, as a value that can be stored, compared and built. Only an
extrusion can fail to build; every other solid raises its counts to the least resolution. -/

namespace TriMesh

/-- A generator with its parameters. -/
inductive MeshSpec (α : Type) where
  | plane (plane : Plane α)
  | box (box : Box α)
  | camera (camera : Camera α)
  | sphere (sphere : Sphere α)
  | cylinder (cylinder : Cylinder α)
  | cone (cone : Cone α)
  | tube (tube : Tube α)
  | extrudedPolyline (extrusion : Extrusion α)
deriving Repr

namespace MeshSpec

variable {α : Type}

/-- The generator's name. -/
def kind : MeshSpec α → String
  | .plane _ => "plane"
  | .box _ => "box"
  | .camera _ => "camera"
  | .sphere _ => "sphere"
  | .cylinder _ => "cylinder"
  | .cone _ => "cone"
  | .tube _ => "tube"
  | .extrudedPolyline _ => "extruded_polyline"

variable [Scalar α]

/-- The generated geometry. -/
def submesh (spec : MeshSpec α) (triangulate : Triangulator α) : Except MeshError (SubMesh α) :=
  match spec with
  | .plane p => .ok p.mesh
  | .box b => .ok b.mesh
  | .camera c => .ok c.mesh
  | .sphere s => .ok s.mesh
  | .cylinder c => .ok c.mesh
  | .cone c => .ok c.mesh
  | .tube t => .ok t.mesh
  | .extrudedPolyline e => e.mesh triangulate

/-- The paths that a triangulator is asked to fill for the generator, if it is asked at all. -/
def outline? : MeshSpec α → Option (List (Path α))
  | .extrudedPolyline e =>
    match Extrusion.tidy e.paths with
    | [] => none
    | paths => some paths
  | _ => none

/-- The generated geometry as the one submesh of a named mesh. -/
def build (spec : MeshSpec α) (name : String) (triangulate : Triangulator α) :
    Except MeshError (Mesh α) :=
  (spec.submesh triangulate).map (Mesh.ofSubMesh name)

end MeshSpec

end TriMesh
