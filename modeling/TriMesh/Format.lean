import TriMesh.Error

/-! # File formats

Which mesh format a path stands for.

* **Extension.** The name of a file is the last component of its path, after trailing separators and
  components that are a single dot. Its extension is what follows the last dot, unless that dot is
  the first character of the name or there is none; two dots name a directory and have no extension.
  An extension may be empty.
* **Format.** Extensions are compared without regard to the case of ASCII letters. -/

namespace TriMesh

/-- The mesh formats that a loader can be registered for. -/
inductive Format where
  /-- Unconnected triangles, in binary or in text. -/
  | triangleSoup
  /-- Indexed triangles in text. -/
  | asciiTriMesh
  /-- A scene graph in markup. -/
  | sceneGraphXml
deriving DecidableEq, Repr

/-- The components of a path: what stands between separators. -/
def pathComponents (path : String) : List (List Char) := path.toList.splitOn '/'

/-- The name of the file that a path leads to, if it leads to one. -/
def fileName? (path : String) : Option (List Char) :=
  ((pathComponents path).reverse.find? fun c => c ≠ [] ∧ c ≠ ['.']).filter (· ≠ ['.', '.'])

/-- What follows the last dot of a file name, if there is a dot behind its first character. -/
def nameExtension? (name : List Char) : Option (List Char) :=
  let ending := name.reverse.takeWhile (· ≠ '.')
  if ending.length + 1 < name.length then some ending.reverse else none

/-- The extension of the file that a path leads to. -/
def extension? (path : String) : Option String :=
  ((fileName? path).bind nameExtension?).map String.ofList

namespace Format

/-- Every format, in the order in which extensions are tried. -/
def all : List Format := [.triangleSoup, .asciiTriMesh, .sceneGraphXml]

/-- The extensions of a format, in lower case and without dot. -/
def extensions : Format → List String
  | .triangleSoup => ["stl"]
  | .asciiTriMesh => ["obj"]
  | .sceneGraphXml => ["dae"]

/-- The name of a format in specifications. -/
def label : Format → String
  | .triangleSoup => "triangle_soup"
  | .asciiTriMesh => "ascii_tri_mesh"
  | .sceneGraphXml => "scene_graph_xml"

/-- The format with a given name. -/
def ofLabel? (label : String) : Option Format := all.find? (·.label == label)

/-- The format of an extension, in any case. -/
def ofExtension? (extension : String) : Option Format :=
  all.find? fun f => f.extensions.contains (extension.map Char.toLower)

/-- The format of the file that a path leads to. -/
def ofPath (path : String) : Except MeshError Format :=
  match extension? path with
  | none => .error (.invalidPath path)
  | some extension =>
    match ofExtension? extension with
    | some f => .ok f
    | none => .error (.unsupportedFormat extension)

/-- The path leads to a file of some format. -/
def accepts (path : String) : Bool := (ofPath path).toBool

end Format

end TriMesh
