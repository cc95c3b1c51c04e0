import TriMesh.Catalog
import TriMesh.Format

/-! # The mesh store: names, slots and loaders

A store keeps meshes under names and never makes one twice. Its state consists of the parts that
calls look at one at a time, each in one indivisible section:

* **Table.** A name refers to a slot. Slots are never reused, so that a call that holds on to a slot
  whose name has been removed does no harm to a later slot of the same name.
* **Slots.** A slot has a mesh or is still empty, and a writer lock that is held while its mesh is
  being made. An empty slot is invisible to every query.
* **Loaders.** One registration for each format at most. A journal of all runs tells how often each
  has run, also one that has been replaced while a call still holds on to it.
* **Generators.** A journal of their runs tells how often the store's triangulator has run, for a
  generator asks it to fill the paths of an extrusion and nothing else.

Handles carry a stamp, so that a mesh published anew under an old name is told apart. -/

namespace TriMesh

/-- A mesh as a store hands it out. Two handles with the same stamp are the same mesh. -/
structure Handle (α : Type) where
  /-- The number of meshes that the store had published before. -/
  stamp : Nat
  /-- The mesh. -/
  mesh : Mesh α
deriving Repr, Inhabited

/-- The answer to a call of a store. -/
inductive Reply (α : Type) where
  /-- A stored mesh, if there is one. -/
  | stored (handle : Option (Handle α))
  /-- A requested mesh, or why there is none. -/
  | made (result : Except MeshError (Handle α))
  /-- Whether something holds. -/
  | truth (b : Bool)
  /-- The number of stored meshes. -/
  | count (n : Nat)
  /-- The names of the stored meshes. -/
  | listed (names : List String)
  /-- Nothing to say. -/
  | done

mutual

/-- A call of a store. -/
inductive Call (α : Type) where
  /-- The mesh under a name. -/
  | get (name : String)
  /-- Whether there is a mesh under a name. -/
  | contains (name : String)
  /-- All names. -/
  | names
  /-- The number of meshes. -/
  | size
  /-- Takes a name out and answers its mesh. -/
  | remove (name : String)
  /-- Takes all names out. -/
  | clear
  /-- Stores a finished mesh under its own name, unless the name is taken. -/
  | addMesh (mesh : Mesh α)
  /-- The mesh under a name, made from a specification if missing. -/
  | getOrCreate (name : String) (spec : MeshSpec α)
  /-- The mesh under a name, looked up first and made from closed paths if missing. -/
  | createExtruded (name : String) (extrusion : Extrusion α)
  /-- The mesh of a file, read by the loader of its format if missing. -/
  | load (path : String)
  /-- A loader for a format, in place of any earlier one. Its script depends on how many runs it had
  before and on the path. -/
  | register (format : Format) (loader : Nat → String → Script α)

/-- What a loader does: calls of the store, each next step depending on the answer, and a result. -/
inductive Script (α : Type) where
  | finish (result : Except MeshError (Mesh α))
  | call (request : Call α) (next : Reply α → Script α)

end

/-- The behaviour of a loader by the number of its earlier runs and the path. -/
abbrev Loader (α : Type) := Nat → String → Script α

/-- A registered loader. Two registrations of one loader are told apart. -/
structure Registration (α : Type) where
  /-- The number of earlier registrations. -/
  id : Nat
  /-- What it does. -/
  loader : Loader α

/-- How the mesh of a missing name comes about. -/
inductive Maker (α : Type) where
  /-- It is there already. -/
  | finished (mesh : Mesh α)
  /-- It is generated from a specification. -/
  | generator (spec : MeshSpec α)
  /-- A loader reads it from a file. -/
  | file (path : String) (registration : Registration α)

/-- A run of a loader. -/
structure LoaderRun where
  /-- The registration that ran. -/
  registration : Nat
  /-- The path that it ran on. -/
  path : String
deriving DecidableEq, Repr, Inhabited

/-- A run of a generator. -/
structure GeneratorRun (α : Type) where
  /-- The name of the mesh that it makes. -/
  name : String
  /-- The generator with its parameters. -/
  spec : MeshSpec α
deriving Repr

/-- The place of one mesh. -/
structure Slot (α : Type) where
  /-- The mesh, once it has been made. -/
  mesh : Option (Handle α) := none
  /-- The writer lock is held. -/
  held : Bool := false
deriving Inhabited

/-- A store. -/
structure Store (α : Type) where
  /-- Fills the paths of extrusions. -/
  triangulate : TriangulatorRuns α
  /-- The slot of each name; no name occurs twice. -/
  table : List (String × Nat) := []
  /-- All slots ever made. -/
  slots : Array (Slot α) := #[]
  /-- The registration of each format. -/
  loaders : Format → Option (Registration α) := fun _ => none
  /-- How many registrations there have been. -/
  registered : Nat := 0
  /-- How many meshes have been published. -/
  published : Nat := 0
  /-- All loader runs in the order in which they began. -/
  journal : Array LoaderRun := #[]
  /-- All generator runs in the order in which they began. -/
  generated : Array (GeneratorRun α) := #[]

namespace Store

variable {α : Type}

/-! ### Sections -/

/-- The slot that a name refers to. -/
def slotOf? (s : Store α) (name : String) : Option Nat := s.table.lookup name

/-- The slot of a name, made empty if the name is new. -/
def slotFor (s : Store α) (name : String) : Store α × Nat :=
  match s.slotOf? name with
  | some i => (s, i)
  | none =>
    ({ s with table := (name, s.slots.size) :: s.table, slots := s.slots.push {} }, s.slots.size)

/-- The mesh in a slot. -/
def meshIn (s : Store α) (slot : Nat) : Option (Handle α) := s.slots[slot]?.bind (·.mesh)

/-- The writer lock of a slot is held. -/
def isHeld (s : Store α) (slot : Nat) : Bool := (s.slots[slot]?.map (·.held)).getD false

/-- A slot changed. -/
def modifySlot (s : Store α) (slot : Nat) (f : Slot α → Slot α) : Store α :=
  { s with slots := s.slots.modify slot f }

/-- The writer lock of a slot taken. -/
def lock (s : Store α) (slot : Nat) : Store α := s.modifySlot slot ({ · with held := true })

/-- The writer lock of a slot given back. -/
def unlock (s : Store α) (slot : Nat) : Store α := s.modifySlot slot ({ · with held := false })

/-- The name still refers to the slot. -/
def isRegistered (s : Store α) (name : String) (slot : Nat) : Bool := s.slotOf? name == some slot

/-- A mesh put into a slot, and its handle. -/
def publish (s : Store α) (slot : Nat) (mesh : Mesh α) : Store α × Handle α :=
  let h : Handle α := ⟨s.published, mesh⟩
  ({ s.modifySlot slot ({ · with mesh := some h }) with published := s.published + 1 }, h)

/-- A name taken out of the table. -/
def forget (s : Store α) (name : String) : Store α :=
  { s with table := s.table.filter (·.1 != name) }

/-- A name taken out if it still refers to the slot, which is empty and not being filled. -/
def discardEmpty (s : Store α) (name : String) (slot : Nat) : Store α :=
  if s.isRegistered name slot && !s.isHeld slot && (s.meshIn slot).isNone then s.forget name else s

/-! ### Queries -/

/-- The mesh under a name. A name whose mesh is still being made has none. -/
def get (s : Store α) (name : String) : Option (Handle α) := (s.slotOf? name).bind s.meshIn

/-- There is a mesh under the name. -/
def contains (s : Store α) (name : String) : Bool := (s.get name).isSome

/-- The names of all stored meshes in increasing order. -/
def names (s : Store α) : List String :=
  ((s.table.filter fun e => (s.meshIn e.2).isSome).map (·.1)).mergeSort fun a b => a ≤ b

/-- The number of stored meshes. -/
def size (s : Store α) : Nat := s.names.length

/-- No mesh is stored. -/
def isEmpty (s : Store α) : Bool := s.size == 0

/-! ### Removal -/

/-- The mesh taken out of a slot. -/
def takeOut (s : Store α) (slot : Nat) : Option (Handle α) × Store α :=
  (s.meshIn slot, s.modifySlot slot ({ · with mesh := none }))

/-- A name and its slot's mesh taken out. Handles given out before stay good. -/
def remove (s : Store α) (name : String) : Option (Handle α) × Store α :=
  match s.slotOf? name with
  | none => (none, s)
  | some slot => (s.forget name).takeOut slot

/-- All names taken out. -/
def clear (s : Store α) : Store α := { s with table := [] }

/-! ### Loaders -/

/-- A loader for a format, in place of any earlier one. -/
def register (s : Store α) (format : Format) (loader : Loader α) : Store α :=
  { s with
    loaders := fun f => if f = format then some ⟨s.registered, loader⟩ else s.loaders f
    registered := s.registered + 1 }

/-- The registration for the format of a path, whether or not there is a mesh under the path. -/
def dispatch (s : Store α) (path : String) : Except MeshError (Registration α) := do
  let format ← Format.ofPath path
  match s.loaders format with
  | some r => .ok r
  | none => .error (.unsupportedFormat ((extension? path).getD ""))

/-- How often a registration has run. -/
def runs (s : Store α) (registration : Nat) : Nat :=
  (s.journal.filter (·.registration == registration)).size

/-! ### Making -/

/-- How often the triangulator has run. -/
def triangulations [Scalar α] (s : Store α) : Nat :=
  (s.generated.filter (·.spec.outline?.isSome)).size

/-- A generator's run noted. -/
def noteGenerator (s : Store α) (name : String) (spec : MeshSpec α) : Store α :=
  { s with generated := s.generated.push ⟨name, spec⟩ }

/-- Making a mesh for a name begun: what is still to do, and the store with the run of a loader or
generator noted. -/
def beginMaking [Scalar α] (s : Store α) (name : String) : Maker α → Script α × Store α
  | .finished mesh => (.finish (.ok mesh), s)
  | .generator spec =>
    (.finish (spec.build name (s.triangulate s.triangulations)), s.noteGenerator name spec)
  | .file path r => (r.loader (s.runs r.id) path, { s with journal := s.journal.push ⟨r.id, path⟩ })

end Store

end TriMesh
