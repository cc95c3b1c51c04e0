import TriMesh.Delaunay.Triangulator
import TriMesh.Json.Basic
import TriMesh.Store.Calls

/-! # Starting a store

The options with which a store of doubles is made, their written form, and the stores they give. -/

namespace TriMesh

/-- The options of a new store. -/
structure StoreConfig where
  /-- Start with the built-in meshes. -/
  builtins : Bool := true
deriving DecidableEq, Repr

namespace StoreConfig

/-- The options as a record. -/
def toJson (c : StoreConfig) : Json := .object [("builtins", .bool c.builtins)]

/-- The options from a record. -/
def ofJson? (v : Json) : Option StoreConfig := do
  match ← Json.fields? ["builtins"] v with
  | [builtins] => return ⟨← builtins.bool?⟩
  | _ => none

end StoreConfig

/-- A new store of doubles with the given options. -/
def StoreConfig.start (c : StoreConfig)
    (triangulate : TriangulatorRuns Float := Delaunay.triangulator) : Except MeshError (Store Float) :=
  Store.create c.builtins triangulate

end TriMesh
