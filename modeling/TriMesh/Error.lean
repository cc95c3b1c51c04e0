import TriMesh.Decimal.Shortest
import TriMesh.Text.Quoted

/-! # Errors

What can go wrong when a mesh is generated, read or looked up, and the wording of it.

* **Causes.** Each constructor names a cause with the values that belong to it. A failed
  triangulation and a mesh that breaks its own rules have causes of their own; both also carry a
  free text, since triangulators and loaders come from outside.
* **Wording** is in the three `message` functions and nowhere else. -/

namespace TriMesh

/-- The buffer that a checked access names. -/
inductive BufferKind where
  | vertex
  | normal
  | texcoord
  | index
  | submesh
deriving DecidableEq, Repr

/-- The buffer's name in messages. -/
def BufferKind.label : BufferKind → String
  | .vertex => "vertex"
  | .normal => "normal"
  | .texcoord => "texcoord"
  | .index => "index"
  | .submesh => "submesh"

/-- Why a coordinate is refused by the triangulation. -/
inductive CoordinateFault where
  | notANumber
  | tooSmall
  | tooLarge
deriving DecidableEq, Repr

/-- The fault's name in messages. -/
def CoordinateFault.label : CoordinateFault → String
  | .notANumber => "NAN"
  | .tooSmall => "TooSmall"
  | .tooLarge => "TooLarge"

/-- Why a list of paths could not be triangulated or extruded. -/
inductive TriangulationFailure where
  /-- No path has three points. -/
  | noUsablePath
  /-- A point has a coordinate out of range. -/
  | refusedPoint (x y : Float) (fault : CoordinateFault)
  /-- Every triangle lies outside the paths. -/
  | emptyInterior
  /-- Only some boundary edges have an outward side. -/
  | unresolvedNormals (resolved edges : Nat)
  /-- A triangle names a point that is not there. -/
  | danglingTriangle (a b c points : Nat)
  /-- A reason given by a triangulator from outside. -/
  | other (text : String)
deriving DecidableEq, Repr

/-- The reason in words. -/
def TriangulationFailure.message : TriangulationFailure → String
  | .noUsablePath => "no path with at least 3 points"
  | .refusedPoint x y fault =>
    s!"cannot insert [{Decimal.ofDouble x}, {Decimal.ofDouble y}]: {fault.label}"
  | .emptyInterior => "no triangle lies inside the input paths"
  | .unresolvedNormals resolved edges =>
    s!"resolved {resolved} outward normals for {edges} boundary edges"
  | .danglingTriangle a b c points =>
    s!"triangle [{a}, {b}, {c}] names a point outside {points} points"
  | .other text => text

/-- Which rule of a well-formed mesh is broken. -/
inductive MeshFault where
  /-- The indices do not come in threes. -/
  | partialTriangle (indices : Nat)
  /-- There are normals, but not one for each vertex. -/
  | normalCount (normals vertices : Nat)
  /-- There are texture coordinates, but not one for each vertex. -/
  | texcoordCount (texcoords vertices : Nat)
  /-- A reason given from outside. -/
  | other (text : String)
deriving DecidableEq, Repr

/-- The broken rule in words. -/
def MeshFault.message : MeshFault → String
  | .partialTriangle indices => s!"index count {indices} is not a multiple of 3"
  | .normalCount normals vertices => s!"{normals} normals for {vertices} vertices"
  | .texcoordCount texcoords vertices =>
    s!"{texcoords} texture coordinates for {vertices} vertices"
  | .other text => text

/-- What can go wrong when a mesh is generated, read or looked up. -/
inductive MeshError where
  /-- There is no triangulator. -/
  | triangulationUnavailable
  /-- The triangulator gave nothing that could be used. -/
  | triangulationFailed (reason : TriangulationFailure)
  /-- A checked access past the end of a buffer. -/
  | indexOutOfRange (buffer : BufferKind) (index len : Nat)
  /-- No loader reads files with this extension. -/
  | unsupportedFormat (extension : String)
  /-- The path has no extension to go by. -/
  | invalidPath (path : String)
  /-- A loader gave up on a file. -/
  | loadFailed (path text : String)
  /-- The mesh breaks one of its own rules. -/
  | invalidMesh (fault : MeshFault)
deriving DecidableEq, Repr

/-- The error in words. -/
def MeshError.message : MeshError → String
  | .triangulationUnavailable =>
    "Triangulation unavailable: build without the `triangulation` feature"
  | .triangulationFailed reason => s!"Triangulation failed: {reason.message}"
  | .indexOutOfRange buffer index len =>
    s!"{buffer.label} index {index} out of range (len {len})"
  | .unsupportedFormat extension => s!"Unsupported mesh format: {Text.quoted extension}"
  | .invalidPath path => s!"Invalid mesh path: {path}"
  | .loadFailed path text => s!"Failed to load {path}: {text}"
  | .invalidMesh fault => s!"Invalid mesh: {fault.message}"

end TriMesh
