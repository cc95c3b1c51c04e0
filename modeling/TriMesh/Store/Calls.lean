import TriMesh.Store.Basic

/-! # Calls of a store, one at a time

What each call answers and how it changes the store, when calls come one after the other. Loaders may
call the store while they run, and so nest calls in each other.

* **First writer wins.** A request for a name that has a mesh answers that mesh and makes nothing. A
  request for any other name takes its slot, locks it, makes the mesh and publishes it under the
  name; if making fails, the lock is given back and the empty slot is discarded.
* **Looking once.** A call looks twice at some things because another thread may come in between. Here
  none does, and the call looks once. A thread on its own comes to the same, section by section
  (`Thread.answer_isReached`).
* **Removal while a mesh is being made** leaves its maker with a slot that no name refers to: the
  mesh is answered but not stored.
* **Stalls.** A call that waits for a lock held by a call further out would wait forever
  (`deadlock`); calls nested deeper than the given depth are given up (`tooDeep`). -/

namespace TriMesh

/-- Why a call has no answer. -/
inductive Stall where
  /-- It waits for a mesh that is being made further out. -/
  | deadlock
  /-- Calls nest too deep. -/
  | tooDeep
deriving DecidableEq, Repr

/-- The answer of a call with the store after it, or why there is none. -/
inductive Outcome (α β : Type) where
  | done (value : β) (after : Store α)
  | stalled (why : Stall)

namespace Outcome

variable {α β γ : Type}

/-- The next call made on the store after an answer; a stall stays. -/
def andThen (o : Outcome α β) (f : β → Store α → Outcome α γ) : Outcome α γ :=
  match o with
  | .done value s => f value s
  | .stalled why => .stalled why

/-- The answer changed. -/
def map (o : Outcome α β) (f : β → γ) : Outcome α γ := o.andThen fun value s => .done (f value) s

end Outcome

/-- A script run against a store, given how calls are answered. -/
def Script.run {α : Type} (answer : Store α → Call α → Outcome α (Reply α)) :
    Script α → Store α → Outcome α (Except MeshError (Mesh α))
  | .finish result, s => .done result s
  | .call request next, s => (answer s request).andThen fun reply s => (next reply).run answer s

namespace Store

variable {α : Type} [Scalar α]

/-- The mesh under a name, made by `maker` if missing, given how a loader's script is run. -/
def request (run : Script α → Store α → Outcome α (Except MeshError (Mesh α))) (s : Store α)
    (name : String) (maker : Maker α) : Outcome α (Except MeshError (Handle α)) :=
  let (s, slot) := s.slotFor name
  match s.meshIn slot with
  | some h => .done (.ok h) s
  | none =>
    if s.isHeld slot then .stalled .deadlock
    else
      let (script, s) := (s.lock slot).beginMaking name maker
      (run script s).andThen fun
        | .ok mesh, s =>
          let (s, h) := s.publish slot (mesh.rename name)
          .done (.ok h) (s.unlock slot)
        | .error e, s => .done (.error e) ((s.unlock slot).discardEmpty name slot)

/-- The answer of a call, with calls nested at most `depth` deep. -/
def answer : Nat → Store α → Call α → Outcome α (Reply α)
  | 0, _, _ => .stalled .tooDeep
  | depth + 1, s, c =>
    let request (name : String) (maker : Maker α) : Outcome α (Reply α) :=
      (s.request (Script.run (answer depth)) name maker).map .made
    match c with
    | .get name => .done (.stored (s.get name)) s
    | .contains name => .done (.truth (s.contains name)) s
    | .names => .done (.listed s.names) s
    | .size => .done (.count s.size) s
    | .remove name =>
      let (h, s) := s.remove name
      .done (.stored h) s
    | .clear => .done .done s.clear
    | .addMesh mesh => request mesh.name (.finished mesh)
    | .getOrCreate name spec => request name (.generator spec)
    | .createExtruded name extrusion =>
      match s.get name with
      | some h => .done (.made (.ok h)) s
      | none => request name (.generator (.extrudedPolyline extrusion))
    | .load path =>
      match s.dispatch path with
      | .error e => .done (.made (.error e)) s
      | .ok r => request path (.file path r)
    | .register format loader => .done .done (s.register format loader)

/-- Calls answered one after the other, and the store after all of them. -/
def answerAll (depth : Nat) (s : Store α) : List (Call α) → Outcome α (List (Reply α))
  | [] => .done [] s
  | c :: cs =>
    (s.answer depth c).andThen fun r s => (s.answerAll depth cs).map (r :: ·)

/-! ### New stores -/

/-- A store without meshes. -/
def empty (triangulate : TriangulatorRuns α) : Store α := { triangulate }

/-- All built-in meshes, or why one cannot be built. None is an extrusion, so that the triangulator
does not run. -/
def builtins (triangulate : Triangulator α) : Except MeshError (List (Mesh α)) :=
  Catalog.entries.mapM fun (name, spec) => spec.build name triangulate

/-- Finished meshes stored one after the other. Storing a mesh makes no calls, so that one level of
calls is deep enough. -/
def addMeshes (s : Store α) (meshes : List (Mesh α)) : Store α :=
  match s.answerAll 1 (meshes.map .addMesh) with
  | .done _ s => s
  | .stalled _ => s

/-- A new store, with the built-in meshes if wanted. -/
def create (withBuiltins : Bool) (triangulate : TriangulatorRuns α) : Except MeshError (Store α) :=
  if withBuiltins then (builtins (triangulate 0)).map (empty triangulate).addMeshes
  else .ok (empty triangulate)

end Store

end TriMesh
