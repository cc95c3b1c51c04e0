import TriMesh.Format
import TriMesh.Json.Parser
import TriMesh.MeshSpec

/-! # Specifications as JSON

The written form of mesh specifications, extrusions and formats.

* **Records** are objects with one member for each field, or arrays of the fields in order. Every
  field has to be there exactly once; members with other names are ignored.
* **Specifications** carry the generator's name in the member `type`, which may stand anywhere, or
  as the first item.
* **Vectors** are arrays of exactly their length. A scalar is any number, a count a natural number
  literal below `2 ^ 32`.
* A specification is read only from a plain value, since all of its members are taken up before the
  generator is known; the other records do not look at members that they ignore. -/

namespace TriMesh

open Json (real? word? listOf? fields?)

/-- How deep arrays and objects may nest in a specification. -/
def specDepth : Nat := 127

/-! ### Writing -/

/-- A scalar. -/
def Json.ofReal (x : Float) : Json := if x.isFinite then .number (.real x) else .null

/-- A count. -/
def Json.ofWord (n : UInt32) : Json := .number (.natural n.toNat)

/-- A vector of the plane. -/
def Json.ofVec2 (v : Vec2 Float) : Json := .array [.ofReal v.x, .ofReal v.y]

/-- A vector of space. -/
def Json.ofVec3 (v : Vec3 Float) : Json := .array [.ofReal v.x, .ofReal v.y, .ofReal v.z]

/-- A list of closed paths. -/
def Json.ofPaths (paths : List (Path Float)) : Json :=
  .array (paths.map fun path => .array (path.map .ofVec2))

/-- The fields of an extrusion. -/
def Extrusion.members (e : Extrusion Float) : List (String × Json) :=
  [("paths", .ofPaths e.paths), ("height", .ofReal e.height)]

/-- An extrusion as a record. -/
def Extrusion.toJson (e : Extrusion Float) : Json := .object e.members

/-- A format by its name. -/
def Format.toJson (f : Format) : Json := .string f.label

namespace MeshSpec

/-- The fields of the generator's parameters. -/
def members : MeshSpec Float → List (String × Json)
  | .plane p =>
    [("normal", .ofVec3 p.normal), ("offset", .ofReal p.offset), ("size", .ofVec2 p.size),
     ("segments", .array [.ofWord p.segments.1, .ofWord p.segments.2]),
     ("uv_tile", .ofVec2 p.uvTile)]
  | .box b => [("sides", .ofVec3 b.sides), ("uv", .ofVec2 b.uv)]
  | .camera c => [("scale", .ofReal c.scale)]
  | .sphere s =>
    [("radius", .ofReal s.radius), ("rings", .ofWord s.rings), ("segments", .ofWord s.segments)]
  | .cylinder c =>
    [("radius", .ofReal c.radius), ("height", .ofReal c.height), ("rings", .ofWord c.rings),
     ("segments", .ofWord c.segments)]
  | .cone c =>
    [("radius", .ofReal c.radius), ("height", .ofReal c.height), ("rings", .ofWord c.rings),
     ("segments", .ofWord c.segments)]
  | .tube t =>
    [("inner_radius", .ofReal t.innerRadius), ("outer_radius", .ofReal t.outerRadius),
     ("height", .ofReal t.height), ("rings", .ofWord t.rings), ("segments", .ofWord t.segments),
     ("arc", .ofReal t.arc)]
  | .extrudedPolyline e => e.members

/-- A specification as a record with the generator's name in front. -/
def toJson (spec : MeshSpec Float) : Json := .object (("type", .string spec.kind) :: spec.members)

end MeshSpec

/-! ### Reading -/

/-- A vector of the plane. -/
def Json.vec2? : Json → Option (Vec2 Float)
  | .array [x, y] => return ⟨← real? x, ← real? y⟩
  | _ => none

/-- A vector of space. -/
def Json.vec3? : Json → Option (Vec3 Float)
  | .array [x, y, z] => return ⟨← real? x, ← real? y, ← real? z⟩
  | _ => none

/-- Two counts. -/
def Json.words? : Json → Option (UInt32 × UInt32)
  | .array [x, y] => return (← word? x, ← word? y)
  | _ => none

/-- A list of closed paths. -/
def Json.paths? : Json → Option (List (Path Float)) := listOf? (listOf? Json.vec2?)

/-- A plane from its fields. -/
def Plane.ofJson? (v : Json) : Option (Plane Float) := do
  match ← fields? ["normal", "offset", "size", "segments", "uv_tile"] v with
  | [normal, offset, size, segments, uvTile] =>
    return ⟨← normal.vec3?, ← offset.real?, ← size.vec2?, ← segments.words?, ← uvTile.vec2?⟩
  | _ => none

/-- A box from its fields. -/
def Box.ofJson? (v : Json) : Option (Box Float) := do
  match ← fields? ["sides", "uv"] v with
  | [sides, uv] => return ⟨← sides.vec3?, ← uv.vec2?⟩
  | _ => none

/-- A camera box from its fields. -/
def Camera.ofJson? (v : Json) : Option (Camera Float) := do
  match ← fields? ["scale"] v with
  | [scale] => return ⟨← scale.real?⟩
  | _ => none

/-- A sphere from its fields. -/
def Sphere.ofJson? (v : Json) : Option (Sphere Float) := do
  match ← fields? ["radius", "rings", "segments"] v with
  | [radius, rings, segments] => return ⟨← radius.real?, ← rings.word?, ← segments.word?⟩
  | _ => none

/-- A cylinder from its fields. -/
def Cylinder.ofJson? (v : Json) : Option (Cylinder Float) := do
  match ← fields? ["radius", "height", "rings", "segments"] v with
  | [radius, height, rings, segments] =>
    return ⟨← radius.real?, ← height.real?, ← rings.word?, ← segments.word?⟩
  | _ => none

/-- A cone from its fields. -/
def Cone.ofJson? (v : Json) : Option (Cone Float) := do
  match ← fields? ["radius", "height", "rings", "segments"] v with
  | [radius, height, rings, segments] =>
    return ⟨← radius.real?, ← height.real?, ← rings.word?, ← segments.word?⟩
  | _ => none

/-- A tube from its fields. -/
def Tube.ofJson? (v : Json) : Option (Tube Float) := do
  match ← fields? ["inner_radius", "outer_radius", "height", "rings", "segments", "arc"] v with
  | [inner, outer, height, rings, segments, arc] =>
    return ⟨← inner.real?, ← outer.real?, ← height.real?, ← rings.word?, ← segments.word?,
      ← arc.real?⟩
  | _ => none

/-- An extrusion from its fields. -/
def Extrusion.ofJson? (v : Json) : Option (Extrusion Float) := do
  match ← fields? ["paths", "height"] v with
  | [paths, height] => return ⟨← paths.paths?, ← height.real?⟩
  | _ => none

/-- A format from its name, or from an object whose only member has that name and no value. -/
def Format.ofJson? : Json → Option Format
  | .string label => Format.ofLabel? label
  | .object [(label, .null)] => Format.ofLabel? label
  | _ => none

namespace MeshSpec

/-- A record taken apart into the generator's name and its parameters. -/
def untag? : Json → Option (String × Json)
  | .object members => do
    let kind ← (← Json.only? members "type").text?
    return (kind, .object (members.filter fun m => m.1 != "type"))
  | .array (kind :: items) => do return (← kind.text?, .array items)
  | _ => none

/-- The parameters of the generator with the given name. -/
def ofParameters? (kind : String) (v : Json) : Option (MeshSpec Float) :=
  match kind with
  | "plane" => (Plane.ofJson? v).map .plane
  | "box" => (Box.ofJson? v).map .box
  | "camera" => (Camera.ofJson? v).map .camera
  | "sphere" => (Sphere.ofJson? v).map .sphere
  | "cylinder" => (Cylinder.ofJson? v).map .cylinder
  | "cone" => (Cone.ofJson? v).map .cone
  | "tube" => (Tube.ofJson? v).map .tube
  | "extruded_polyline" => (Extrusion.ofJson? v).map .extrudedPolyline
  | _ => none

/-- A specification from its written form. -/
def ofJson? (v : Json) : Option (MeshSpec Float) :=
  if v.isPlain specDepth then (untag? v).bind fun (kind, parameters) =>
    ofParameters? kind parameters
  else none

end MeshSpec

end TriMesh
