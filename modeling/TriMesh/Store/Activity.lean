import TriMesh.Store.Basic

/-! # Calls of a store, section by section

A call that is under way alternates between sections on the store, each of which happens at once, and
pauses in which other threads may come in between.

* **Lookups** take one section for the table and one for each slot that they read.
* **Requests** for a mesh go through the stages of `Progress`. They look for the mesh before and after
  they take the slot's writer lock, and start over if the name has lost the slot in between.
* **Discards.** A request that fails gives the lock back first. Then it takes the table for itself,
  and, one after the other, sees that the name refers to the slot, that the writer lock is free, by
  taking it for a moment, and that the slot is empty, and takes the name out. Others may wait for the
  table meanwhile, but a call that does not need it goes on: it may look into the slot, and it may take
  the writer lock as soon as that has been given back.
* **Waiting.** The sections that may have to wait are the one that takes a writer lock and those on the
  table. Every stay at the table but a discard is a single section.
* **Loaders** call the store from within a request. A thread is thus a call under way and the loader
  runs, from the inside out, that wait for its answer.

`Activity.step` is one section of a call and `Thread.step` one of a thread; they are `none` where
nothing can happen. -/

namespace TriMesh

/-- How far a request for a mesh has come. From `checking` on, until a stage says otherwise, it holds
the writer lock of its slot; from `trying` on it has the table for itself. -/
inductive Progress (α : Type) where
  /-- About to take the slot of its name. -/
  | taking
  /-- About to see whether the slot has a mesh. -/
  | looking (slot : Nat)
  /-- About to take the writer lock. -/
  | waiting (slot : Nat)
  /-- About to see again whether the slot has a mesh. -/
  | checking (slot : Nat)
  /-- About to see whether the name still refers to the slot. -/
  | confirming (slot : Nat)
  /-- About to give the lock back and to start over. -/
  | retreating (slot : Nat)
  /-- About to begin making the mesh. -/
  | starting (slot : Nat)
  /-- Making the mesh. -/
  | making (slot : Nat) (script : Script α)
  /-- About to put the mesh into the slot. -/
  | publishing (slot : Nat) (mesh : Mesh α)
  /-- About to give the lock back and to answer. -/
  | leaving (slot : Nat) (handle : Handle α)
  /-- About to give the lock back for want of a mesh. -/
  | failing (slot : Nat) (why : MeshError)
  /-- Without the lock, about to see whether the name still refers to the slot, which is discarded if
  it is of no use. -/
  | discarding (slot : Nat) (why : MeshError)
  /-- About to see whether the writer lock is free, and to take it if so. -/
  | trying (slot : Nat) (why : MeshError)
  /-- About to give the lock back again. -/
  | releasing (slot : Nat) (why : MeshError)
  /-- Without the lock, about to see whether the slot is empty. -/
  | inspecting (slot : Nat) (why : MeshError)
  /-- About to take the name out. -/
  | dropping (slot : Nat) (why : MeshError)

/-- The request has the table for itself. -/
def Progress.holdsTable {α : Type} : Progress α → Bool
  | .trying _ _ | .releasing _ _ | .inspecting _ _ | .dropping _ _ => true
  | _ => false

/-- The next section of the request is on the table, and none before it has taken the table. -/
def Progress.takesTable {α : Type} : Progress α → Bool
  | .taking | .confirming _ | .discarding _ _ => true
  | _ => false

/-- The first section of the call is on the table. -/
def Call.takesTable {α : Type} : Call α → Bool
  | .addMesh _ | .getOrCreate _ _ | .load _ | .register _ _ => false
  | _ => true

/-- A call that is under way. -/
inductive Activity (α : Type) where
  /-- Not begun. -/
  | ready (call : Call α)
  /-- A lookup that has found a slot. -/
  | reading (call : Call α) (slot : Nat)
  /-- A list or count of names, with the slots to read and the names found. -/
  | listing (call : Call α) (rest : List (String × Nat)) (found : List String)
  /-- A removal that has taken the name out. -/
  | emptying (slot : Nat)
  /-- A request for a mesh. -/
  | requesting (name : String) (maker : Maker α) (progress : Progress α)
  /-- At its end. -/
  | answered (reply : Reply α)

namespace Activity

variable {α : Type}

/-- The call has the table for itself. -/
def holdsTable : Activity α → Bool
  | requesting _ _ progress => progress.holdsTable
  | _ => false

/-- The next section of the call is on the table, and none before it has taken the table. -/
def takesTable : Activity α → Bool
  | ready call => call.takesTable
  | requesting _ _ progress => progress.takesTable
  | _ => false

/-- A lookup after it has seen what is stored. Making an extrusion goes on to a request. -/
def afterLookup : Call α → Option (Handle α) → Activity α
  | .contains _, h => answered (.truth h.isSome)
  | .createExtruded _ _, some h => answered (.made (.ok h))
  | .createExtruded name extrusion, none =>
    requesting name (.generator (.extrudedPolyline extrusion)) .taking
  | _, h => answered (.stored h)

/-- A lookup after its section for the table. -/
def lookup (s : Store α) (call : Call α) (name : String) : Activity α :=
  match s.slotOf? name with
  | some slot => reading call slot
  | none => afterLookup call none

/-- A list or count of names after it has read all slots. -/
def afterListing : Call α → List String → Activity α
  | .size, found => answered (.count found.length)
  | _, found => answered (.listed (found.mergeSort fun a b => a ≤ b))

/-- The first section of a call. -/
def start (s : Store α) : Call α → Store α × Activity α
  | .get name => (s, lookup s (.get name) name)
  | .contains name => (s, lookup s (.contains name) name)
  | .names => (s, listing .names s.table [])
  | .size => (s, listing .size s.table [])
  | .remove name =>
    match s.slotOf? name with
    | some slot => (s.forget name, emptying slot)
    | none => (s, answered (.stored none))
  | .clear => (s.clear, answered .done)
  | .addMesh mesh => (s, requesting mesh.name (.finished mesh) .taking)
  | .getOrCreate name spec => (s, requesting name (.generator spec) .taking)
  | .createExtruded name extrusion => (s, lookup s (.createExtruded name extrusion) name)
  | .load path =>
    match s.dispatch path with
    | .ok r => (s, requesting path (.file path r) .taking)
    | .error e => (s, answered (.made (.error e)))
  | .register format loader => (s.register format loader, answered .done)

variable [Scalar α]

/-- The next section of a request. -/
def advance (s : Store α) (name : String) (maker : Maker α) :
    Progress α → Option (Store α × Activity α)
  | .taking =>
    let (s, slot) := s.slotFor name
    some (s, requesting name maker (.looking slot))
  | .looking slot =>
    match s.meshIn slot with
    | some h => some (s, answered (.made (.ok h)))
    | none => some (s, requesting name maker (.waiting slot))
  | .waiting slot =>
    if s.isHeld slot then none else some (s.lock slot, requesting name maker (.checking slot))
  | .checking slot =>
    match s.meshIn slot with
    | some h => some (s, requesting name maker (.leaving slot h))
    | none => some (s, requesting name maker (.confirming slot))
  | .confirming slot =>
    if s.isRegistered name slot then some (s, requesting name maker (.starting slot))
    else some (s, requesting name maker (.retreating slot))
  | .retreating slot => some (s.unlock slot, requesting name maker .taking)
  | .starting slot =>
    let (script, s) := s.beginMaking name maker
    some (s, requesting name maker (.making slot script))
  | .making slot (.finish (.ok mesh)) => some (s, requesting name maker (.publishing slot mesh))
  | .making slot (.finish (.error e)) => some (s, requesting name maker (.failing slot e))
  | .making _ (.call _ _) => none
  | .publishing slot mesh =>
    let (s, h) := s.publish slot (mesh.rename name)
    some (s, requesting name maker (.leaving slot h))
  | .leaving slot h => some (s.unlock slot, answered (.made (.ok h)))
  | .failing slot e => some (s.unlock slot, requesting name maker (.discarding slot e))
  | .discarding slot e =>
    if s.isRegistered name slot then some (s, requesting name maker (.trying slot e))
    else some (s, answered (.made (.error e)))
  | .trying slot e =>
    if s.isHeld slot then some (s, answered (.made (.error e)))
    else some (s.lock slot, requesting name maker (.releasing slot e))
  | .releasing slot e => some (s.unlock slot, requesting name maker (.inspecting slot e))
  | .inspecting slot e =>
    match s.meshIn slot with
    | some _ => some (s, answered (.made (.error e)))
    | none => some (s, requesting name maker (.dropping slot e))
  | .dropping _ e => some (s.forget name, answered (.made (.error e)))

/-- The next section of a call where the table is free or its own: none if it has ended, waits for a
writer lock or for a call of its own. -/
def step (s : Store α) : Activity α → Option (Store α × Activity α)
  | ready call => some (start s call)
  | reading call slot => some (s, afterLookup call (s.meshIn slot))
  | listing call ((name, slot) :: rest) found =>
    some (s, listing call rest (if (s.meshIn slot).isSome then name :: found else found))
  | listing call [] found => some (s, afterListing call found)
  | emptying slot =>
    let (h, s) := s.takeOut slot
    some (s, answered (.stored h))
  | requesting name maker progress => advance s name maker progress
  | answered _ => none

end Activity

/-- A loader run that waits for the answer to a call of its own. -/
structure Pending (α : Type) where
  /-- The name of the mesh that is being made. -/
  name : String
  /-- How it is being made. -/
  maker : Maker α
  /-- The slot that it is made for. -/
  slot : Nat
  /-- What the loader does with the answer. -/
  next : Reply α → Script α

/-- A thread: the call under way and the loader runs that wait for it, from the inside out. -/
structure Thread (α : Type) where
  /-- The innermost call. -/
  now : Activity α
  /-- The waiting loader runs. -/
  outer : List (Pending α) := []

namespace Thread

variable {α : Type}

/-- A thread that is about to make a call. -/
def ofCall (call : Call α) : Thread α := { now := .ready call }

/-- The answer of the call that the thread was made for. -/
def reply? (t : Thread α) : Option (Reply α) :=
  match t.now, t.outer with
  | .answered reply, [] => some reply
  | _, _ => none

/-- What a loader run does with the answer that it has waited for. -/
def resume (p : Pending α) (reply : Reply α) : Activity α :=
  .requesting p.name p.maker (.making p.slot (p.next reply))

/-- The next section of a thread where the table is free or its own: none if it has its answer or waits
for a writer lock. -/
def step [Scalar α] (s : Store α) (t : Thread α) : Option (Store α × Thread α) :=
  match t.now, t.outer with
  | .answered _, [] => none
  | .answered reply, p :: outer => some (s, ⟨resume p reply, outer⟩)
  | .requesting name maker (.making slot (.call request next)), outer =>
    some (s, ⟨.ready request, ⟨name, maker, slot, next⟩ :: outer⟩)
  | now, outer => (now.step s).map fun (s, now) => (s, ⟨now, outer⟩)

/-- A generator begun that comes out with a result of its own. Generators that run at the same time share
a triangulator, which may number their runs in any order. -/
def generate (s : Store α) (result : Except MeshError (Mesh α)) (t : Thread α) :
    Option (Store α × Thread α) :=
  match t.now with
  | .requesting name (.generator spec) (.starting slot) =>
    some (s.noteGenerator name spec,
      { t with now := .requesting name (.generator spec) (.making slot (.finish result)) })
  | _ => none

end Thread

end TriMesh
