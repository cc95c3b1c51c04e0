import TriMesh.Store.Activity

/-! # Threads that share a store

A store and the threads that call it. What happens is a sequence of events, each one section of one
thread; a thread stays in the list when it has its answer, so that the list tells all answers.

* **Events** (`SharedStore.step`) come in any order. An event of a thread that waits, for a writer lock
  or for the table, or that has its answer, cannot happen.
* **Reachable** is what some events lead to.
* **Settling** (`SharedStore.settle`) is one order of events that leaves no thread out: in each round
  every thread that can take a step takes one. -/

namespace TriMesh

/-- A store and the threads that call it. -/
structure SharedStore (α : Type) where
  /-- The store. -/
  store : Store α
  /-- The threads in the order of their arrival. -/
  threads : List (Thread α) := []

/-- Something that happens at once. -/
inductive Event (α : Type) where
  /-- A new thread is about to make a call. -/
  | arrive (call : Call α)
  /-- A thread takes its next section. -/
  | advance (thread : Nat)
  /-- A thread begins a generator, which comes out with a result of its own. -/
  | generate (thread : Nat) (result : Except MeshError (Mesh α))

namespace SharedStore

variable {α : Type}

/-- Threads that each make a call of a store. -/
def ofCalls (store : Store α) (calls : List (Call α)) : SharedStore α :=
  { store, threads := calls.map .ofCall }

/-- The answers of all threads, if all have theirs. -/
def replies? (shared : SharedStore α) : Option (List (Reply α)) := shared.threads.mapM Thread.reply?

/-- No thread has the table for itself. -/
def isTableFree (shared : SharedStore α) : Bool := shared.threads.all fun t => !t.now.holdsTable

/-- Every thread has its answer. -/
def isIdle (shared : SharedStore α) : Bool := shared.threads.all fun t => t.reply?.isSome

variable [Scalar α]

/-- What an event leads to, if the event can happen. -/
def step (shared : SharedStore α) : Event α → Option (SharedStore α)
  | .arrive call => some { shared with threads := shared.threads ++ [.ofCall call] }
  | .advance i => do
    let t ← shared.threads[i]?
    if t.now.takesTable && !shared.isTableFree then none
    else
      let (store, t) ← t.step shared.store
      return { store, threads := shared.threads.set i t }
  | .generate i result => do
    let (store, t) ← (← shared.threads[i]?).generate shared.store result
    return { store, threads := shared.threads.set i t }

/-- What events lead to, if all can happen. -/
def run (shared : SharedStore α) (events : List (Event α)) : Option (SharedStore α) :=
  events.foldlM step shared

/-- What some events lead to. -/
inductive Reachable (start : SharedStore α) : SharedStore α → Prop where
  | refl : Reachable start start
  | step {shared shared' : SharedStore α} (event : Event α) (before : Reachable start shared)
      (happens : shared.step event = some shared') : Reachable start shared'

/-- One section of each thread that can take one, in order. -/
def round (shared : SharedStore α) : SharedStore α :=
  (List.range shared.threads.length).foldl
    (fun shared i => (shared.step (.advance i)).getD shared) shared

/-- Rounds until every thread has its answer, if that takes at most `rounds`. -/
def settle : Nat → SharedStore α → Option (SharedStore α)
  | 0, shared => if shared.isIdle then some shared else none
  | rounds + 1, shared => if shared.isIdle then some shared else shared.round.settle rounds

end SharedStore

end TriMesh
