import Mathlib.Data.List.Perm.Basic
import TriMesh.Store.Shared
import TriMesh.Proofs.StoreStates

/-! # What calls under way have to do with slots

A thread is looked at as the slots that it has got hold of.

* **Frames.** A request for a mesh, and likewise a lookup, has one slot at a time and is at some `Stage`
  with it. A loader run that waits for an answer is still making its mesh. A removal has a slot that it
  is about to empty.
* **Closing.** The frame of a discard that is under way has the table for itself. Where nobody closes,
  the table is free (`SharedStore.closes_eq_false`).
* **Moves.** `Move` lists what one section can do to the store and to the frames of its thread, with
  all that the section has seen when it did so. Every event that happens is a move of one thread
  (`SharedStore.move_of_step`), so that what moves keep holds in every run. -/

namespace TriMesh

/-- How far a call has come with a slot. -/
inductive Stage (α : Type) where
  /-- About to read it for a lookup. -/
  | reading
  /-- About to look at it, to wait for its lock, or to take the table for discarding it. -/
  | visiting
  /-- About to see under the lock whether it has a mesh. -/
  | checking
  /-- About to see whether the name still refers to it. -/
  | confirming
  /-- About to give up a slot that the name has lost. -/
  | retreating
  /-- About to begin making its mesh. -/
  | starting
  /-- Making its mesh. -/
  | making
  /-- About to put the mesh into it. -/
  | publishing
  /-- About to answer its mesh. -/
  | leaving (handle : Handle α)
  /-- About to give back the lock for want of a mesh. -/
  | failing
  /-- With the table for itself, about to see whether the lock is free. -/
  | trying
  /-- With the table for itself, about to give back the lock. -/
  | releasing
  /-- With the table for itself, about to see whether the slot is empty. -/
  | inspecting
  /-- With the table for itself, about to take the name out. -/
  | dropping

namespace Stage

variable {α : Type}

/-- The writer lock is held. -/
def holds : Stage α → Bool
  | reading | visiting | trying | inspecting | dropping => false
  | _ => true

/-- The call has the table for itself. -/
def closes : Stage α → Bool
  | trying | releasing | inspecting | dropping => true
  | _ => false

/-- The slot has been seen empty under the lock. -/
def isVacant : Stage α → Bool
  | confirming | starting | making | publishing | failing => true
  | _ => false

/-- A mesh is on its way into the slot. -/
def fills : Stage α → Bool
  | starting | making | publishing => true
  | _ => false

/-- The call has the lock for making the mesh, whether or not it comes to make it. -/
def works : Stage α → Bool
  | starting | making | publishing | failing => true
  | _ => false

/-- The call goes on from what it has seen under the lock. -/
def relies : Stage α → Bool
  | confirming | retreating | starting | making | publishing | leaving _ | failing => true
  | _ => false

/-- The call does not end before the slot has a mesh or has been looked at for being discarded. -/
def attends : Stage α → Bool
  | reading => false
  | _ => true

theorem relies_eq_false {st : Stage α} (h : st.holds = false) : st.relies = false := by
  cases st <;> simp_all [relies, holds]

theorem relies_of_isVacant {st : Stage α} (h : st.isVacant = true) : st.relies = true := by
  cases st <;> simp_all [isVacant, relies]

theorem holds_of_works {st : Stage α} (h : st.works = true) : st.holds = true := by
  cases st <;> simp_all [works, holds]

theorem attends_of_holds {st : Stage α} (h : st.holds = true) : st.attends = true := by
  cases st <;> simp_all [attends, holds]

end Stage

/-- A call that has got hold of a slot for a name. -/
structure Frame (α : Type) where
  name : String
  slot : Nat
  stage : Stage α

/-- The call holds the writer lock of the slot. -/
def Frame.holds {α : Type} (f : Frame α) (slot : Nat) : Bool := f.slot == slot && f.stage.holds

variable {α : Type}

/-- The frame of a request. -/
def Progress.frames (name : String) : Progress α → List (Frame α)
  | .taking => []
  | .looking slot | .waiting slot | .discarding slot _ => [⟨name, slot, .visiting⟩]
  | .trying slot _ => [⟨name, slot, .trying⟩]
  | .releasing slot _ => [⟨name, slot, .releasing⟩]
  | .inspecting slot _ => [⟨name, slot, .inspecting⟩]
  | .dropping slot _ => [⟨name, slot, .dropping⟩]
  | .checking slot => [⟨name, slot, .checking⟩]
  | .confirming slot => [⟨name, slot, .confirming⟩]
  | .retreating slot => [⟨name, slot, .retreating⟩]
  | .starting slot => [⟨name, slot, .starting⟩]
  | .making slot _ => [⟨name, slot, .making⟩]
  | .publishing slot _ => [⟨name, slot, .publishing⟩]
  | .leaving slot h => [⟨name, slot, .leaving h⟩]
  | .failing slot _ => [⟨name, slot, .failing⟩]

/-- The frame of a call, if it has a slot. -/
def Activity.frames : Activity α → List (Frame α)
  | .reading (.get name) slot | .reading (.contains name) slot
  | .reading (.createExtruded name _) slot => [⟨name, slot, .reading⟩]
  | .requesting name _ progress => progress.frames name
  | _ => []

/-- The slot that a removal is about to empty. -/
def Activity.emptied : Activity α → List Nat
  | .emptying slot => [slot]
  | _ => []

def Pending.frame (p : Pending α) : Frame α := ⟨p.name, p.slot, .making⟩

def Thread.frames (t : Thread α) : List (Frame α) := t.now.frames ++ t.outer.map Pending.frame

theorem Progress.holdsTable_eq (name : String) (p : Progress α) :
    p.holdsTable = (p.frames name).any (·.stage.closes) := by
  cases p <;> rfl

theorem Activity.holdsTable_eq (a : Activity α) : a.holdsTable = a.frames.any (·.stage.closes) := by
  cases a with
  | reading call slot => cases call <;> rfl
  | requesting name maker p => exact p.holdsTable_eq name
  | _ => rfl

/-- A loader run that waits has not the table for itself. -/
theorem Thread.holdsTable_eq (t : Thread α) : t.now.holdsTable = t.frames.any (·.stage.closes) := by
  have houter : (t.outer.map Pending.frame).any (·.stage.closes) = false := by
    simp [Pending.frame, Stage.closes]
  rw [frames, List.any_append, houter, Bool.or_false, Activity.holdsTable_eq]

namespace SharedStore

def frames (shared : SharedStore α) : List (Frame α) := shared.threads.flatMap Thread.frames

/-- Where the table is free, nobody is in the middle of a discard. -/
theorem closes_eq_false {shared : SharedStore α} (h : shared.isTableFree = true) :
    ∀ f ∈ shared.frames, f.stage.closes = false := by
  intro f hf
  obtain ⟨t, ht, hf⟩ := List.mem_flatMap.mp hf
  have hthread := List.all_eq_true.mp h t ht
  rw [Thread.holdsTable_eq, Bool.not_eq_true', List.any_eq_false] at hthread
  simpa using hthread f hf

def emptied (shared : SharedStore α) : List Nat := shared.threads.flatMap (·.now.emptied)

/-- The call of which an event is the first section. -/
def begins? (shared : SharedStore α) : Event α → Option (Call α)
  | .advance i => shared.threads[i]?.bind fun t =>
    match t.now with
    | .ready call => some call
    | _ => none
  | _ => none

end SharedStore

/-! ### Moves -/

/-- A store and what a thread has of it. -/
structure View (α : Type) where
  store : Store α
  frames : List (Frame α)
  emptied : List Nat

/-- How a request goes on with its slot without a change to names or slots. -/
inductive Stage.Next (free : Prop) (s : Store α) (name : String) (slot : Nat) :
    Stage α → Stage α → Prop where
  | wait : Next free s name slot .visiting .visiting
  | recheck {h : Handle α} (full : s.meshIn slot = some h) : Next free s name slot .checking (.leaving h)
  | confirm (vacant : s.meshIn slot = none) : Next free s name slot .checking .confirming
  | start (table : free) (refers : s.slotOf? name = some slot) :
      Next free s name slot .confirming .starting
  | retreat (table : free) (lost : s.slotOf? name ≠ some slot) :
      Next free s name slot .confirming .retreating
  | make : Next free s name slot .starting .making
  | publish : Next free s name slot .making .publishing
  | fail : Next free s name slot .making .failing
  | close (table : free) (refers : s.slotOf? name = some slot) : Next free s name slot .visiting .trying
  | inspect (vacant : s.meshIn slot = none) : Next free s name slot .inspecting .dropping

/-- How a call is done with its slot without a change to names or slots. -/
inductive Stage.Ends (s : Store α) (name : String) (slot : Nat) : Stage α → Prop where
  | read : Ends s name slot .reading
  | find (full : (s.meshIn slot).isSome) : Ends s name slot .visiting
  | pass (lost : s.slotOf? name ≠ some slot) : Ends s name slot .visiting
  | yield (held : s.isHeld slot = true) : Ends s name slot .trying
  | keep (full : (s.meshIn slot).isSome) : Ends s name slot .inspecting

/-- How a request takes the lock of its slot. -/
inductive Stage.Locks : Stage α → Stage α → Prop where
  | enter : Locks .visiting .checking
  | attempt : Locks .trying .releasing

/-- How a request gives the lock back and goes on with its slot. -/
inductive Stage.Unlocks : Stage α → Stage α → Prop where
  | fail : Unlocks .failing .visiting
  | release : Unlocks .releasing .inspecting

/-- What one section does to the store and to the frames of its thread, where only calls that are `ok`
begin, and a section takes the table only if it is `free`. -/
inductive Move (ok : Call α → Prop) (free : Prop) : View α → View α → Prop where
  | still {s s' : Store α} (table : s'.table = s.table) (slots : s'.slots = s.slots) :
      Move ok free ⟨s, [], []⟩ ⟨s', [], []⟩
  | look {s : Store α} {name : String} {slot : Nat} (refers : s.slotOf? name = some slot) :
      Move ok free ⟨s, [], []⟩ ⟨s, [⟨name, slot, .reading⟩], []⟩
  | done {s : Store α} {name : String} {slot : Nat} {st : Stage α} (ends : st.Ends s name slot) :
      Move ok free ⟨s, [⟨name, slot, st⟩], []⟩ ⟨s, [], []⟩
  | take {s : Store α} {name : String} (table : free) :
      Move ok free ⟨s, [], []⟩ ⟨(s.slotFor name).1, [⟨name, (s.slotFor name).2, .visiting⟩], []⟩
  | lock {s : Store α} {name : String} {slot : Nat} {st st' : Stage α} (locks : st.Locks st')
      (unheld : s.isHeld slot = false) :
      Move ok free ⟨s, [⟨name, slot, st⟩], []⟩ ⟨s.lock slot, [⟨name, slot, st'⟩], []⟩
  | next {s s' : Store α} {name : String} {slot : Nat} {st st' : Stage α}
      (next : st.Next free s name slot st') (table : s'.table = s.table) (slots : s'.slots = s.slots) :
      Move ok free ⟨s, [⟨name, slot, st⟩], []⟩ ⟨s', [⟨name, slot, st'⟩], []⟩
  | publish {s : Store α} {name : String} {slot : Nat} {mesh : Mesh α} :
      Move ok free ⟨s, [⟨name, slot, .publishing⟩], []⟩
        ⟨(s.publish slot mesh).1, [⟨name, slot, .leaving ⟨s.published, mesh⟩⟩], []⟩
  | retreat {s : Store α} {name : String} {slot : Nat} :
      Move ok free ⟨s, [⟨name, slot, .retreating⟩], []⟩ ⟨s.unlock slot, [], []⟩
  | leave {s : Store α} {name : String} {slot : Nat} {h : Handle α} :
      Move ok free ⟨s, [⟨name, slot, .leaving h⟩], []⟩ ⟨s.unlock slot, [], []⟩
  | unlock {s : Store α} {name : String} {slot : Nat} {st st' : Stage α} (unlocks : st.Unlocks st') :
      Move ok free ⟨s, [⟨name, slot, st⟩], []⟩ ⟨s.unlock slot, [⟨name, slot, st'⟩], []⟩
  | drop {s : Store α} {name : String} {slot : Nat} :
      Move ok free ⟨s, [⟨name, slot, .dropping⟩], []⟩ ⟨s.forget name, [], []⟩
  | forget {s : Store α} {name : String} {slot : Nat} (table : free) (begins : ok (.remove name))
      (refers : s.slotOf? name = some slot) : Move ok free ⟨s, [], []⟩ ⟨s.forget name, [], [slot]⟩
  | empty {s : Store α} {slot : Nat} : Move ok free ⟨s, [], [slot]⟩ ⟨(s.takeOut slot).2, [], []⟩
  | clear {s : Store α} (table : free) (begins : ok .clear) : Move ok free ⟨s, [], []⟩ ⟨s.clear, [], []⟩

def Activity.view (s : Store α) (a : Activity α) : View α := ⟨s, a.frames, a.emptied⟩

section Sections

variable {s s' : Store α} {ok : Call α → Prop} {free : Prop}

theorem Activity.move_of_lookup {call : Call α} {name : String}
    (hc : call = .get name ∨ call = .contains name ∨ ∃ e, call = .createExtruded name e) :
    Move ok free ⟨s, [], []⟩ ((Activity.lookup s call name).view s) := by
  unfold lookup
  cases hn : s.slotOf? name with
  | some slot => obtain rfl | rfl | ⟨e, rfl⟩ := hc <;> exact .look hn
  | none => obtain rfl | rfl | ⟨e, rfl⟩ := hc <;> exact .still rfl rfl

theorem Activity.move_of_start {call : Call α} {a : Activity α} (begins : ok call)
    (table : call.takesTable = true → free) (h : Activity.start s call = (s', a)) :
    Move ok free ⟨s, [], []⟩ (a.view s') := by
  cases call with
  | get name =>
      cases h
      exact move_of_lookup (.inl rfl)
  | contains name =>
      cases h
      exact move_of_lookup (.inr (.inl rfl))
  | createExtruded name e =>
      cases h
      exact move_of_lookup (.inr (.inr ⟨e, rfl⟩))
  | remove name =>
      simp only [start] at h
      split at h
      · next slot hn =>
          cases h
          exact .forget (table rfl) begins hn
      · cases h
        exact .still rfl rfl
  | clear =>
      cases h
      exact .clear (table rfl) begins
  | load path =>
      simp only [start] at h
      split at h <;> cases h <;> exact .still rfl rfl
  | _ =>
      cases h
      exact .still rfl rfl

theorem Activity.move_of_reading (call : Call α) (slot : Nat) (h : Option (Handle α)) :
    Move ok free ((Activity.reading call slot).view s) ((Activity.afterLookup call h).view s) := by
  cases call with
  | get name | contains name => exact .done .read
  | createExtruded name e => cases h <;> exact .done .read
  | _ => exact .still rfl rfl

/-- What a thread has of a store, beside the frames of its waiting loader runs, before a section and
after it. -/
structure Thread.Moves (ok : Call α → Prop) (free : Prop) (s : Store α) (t : Thread α) (s' : Store α)
    (t' : Thread α) (v v' : View α) (waiting : List (Frame α)) : Prop where
  move : Move ok free v v'
  store : v.store = s
  store' : v'.store = s'
  frames : t.frames = v.frames ++ waiting
  frames' : t'.frames = v'.frames ++ waiting
  emptied : t.now.emptied = v.emptied
  emptied' : t'.now.emptied = v'.emptied

theorem Thread.exists_moves_of_generate {t t' : Thread α} {result : Except MeshError (Mesh α)}
    (h : t.generate s result = some (s', t')) :
    ∃ v v' waiting, t.Moves ok free s s' t' v v' waiting := by
  unfold Thread.generate at h
  split at h
  · next name spec slot hnow =>
      cases h
      refine ⟨⟨s, [⟨name, slot, .starting⟩], []⟩,
        ⟨s.noteGenerator name spec, [⟨name, slot, .making⟩], []⟩, t.outer.map Pending.frame,
        .next .make rfl rfl, rfl, rfl, ?_, rfl, ?_, rfl⟩
      · simp [Thread.frames, hnow, Activity.frames, Progress.frames]
      · simp [hnow, Activity.emptied]
  · cases h

/-- All that the threads have of their store is what one of them has and what the others have. -/
structure View.Within (v : View α) (others : List (Frame α)) (emptied : List Nat)
    (shared : SharedStore α) : Prop where
  store : v.store = shared.store
  frames : shared.frames.Perm (v.frames ++ others)
  emptied : shared.emptied.Perm (v.emptied ++ emptied)

theorem SharedStore.exists_within {shared : SharedStore α} {store : Store α} {i : Nat}
    {t t' : Thread α} {v v' : View α} {waiting : List (Frame α)} (ht : shared.threads[i]? = some t)
    (h : t.Moves ok free shared.store store t' v v' waiting) :
    ∃ others emptied, v.Within others emptied shared ∧
      v'.Within others emptied { store, threads := shared.threads.set i t' } := by
  obtain ⟨hlt, rfl⟩ := List.getElem?_eq_some_iff.mp ht
  have hold := (List.getElem_cons_eraseIdx_perm hlt).symm
  have hnew := List.set_perm_cons_eraseIdx hlt t'
  let rest := shared.threads.eraseIdx i
  refine ⟨waiting ++ rest.flatMap Thread.frames, rest.flatMap (·.now.emptied),
    ⟨h.store, ?_, ?_⟩, ⟨h.store', ?_, ?_⟩⟩
  · rw [← List.append_assoc, ← h.frames]
    exact hold.flatMap_right Thread.frames
  · rw [← h.emptied]
    exact hold.flatMap_right (·.now.emptied)
  · rw [← List.append_assoc, ← h.frames']
    exact hnew.flatMap_right Thread.frames
  · rw [← h.emptied']
    exact hnew.flatMap_right (·.now.emptied)

variable [Scalar α]

theorem Activity.move_of_advance {name : String} {maker : Maker α} {p : Progress α} {a : Activity α}
    (table : p.takesTable = true → free) (h : Activity.advance s name maker p = some (s', a)) :
    Move ok free ⟨s, p.frames name, []⟩ (a.view s') := by
  cases p with
  | taking =>
      cases h
      exact .take (table rfl)
  | looking slot =>
      simp only [advance] at h
      cases hm : s.meshIn slot with
      | some m =>
          simp only [hm, Option.some.injEq, Prod.mk.injEq] at h
          obtain ⟨rfl, rfl⟩ := h
          exact .done (.find (by simp [hm]))
      | none =>
          simp only [hm, Option.some.injEq, Prod.mk.injEq] at h
          obtain ⟨rfl, rfl⟩ := h
          exact .next .wait rfl rfl
  | waiting slot =>
      simp only [advance] at h
      split at h
      · cases h
      · next unheld =>
          cases h
          exact .lock .enter (by simpa using unheld)
  | checking slot =>
      simp only [advance] at h
      cases hm : s.meshIn slot with
      | some m =>
          simp only [hm, Option.some.injEq, Prod.mk.injEq] at h
          obtain ⟨rfl, rfl⟩ := h
          exact .next (.recheck hm) rfl rfl
      | none =>
          simp only [hm, Option.some.injEq, Prod.mk.injEq] at h
          obtain ⟨rfl, rfl⟩ := h
          exact .next (.confirm hm) rfl rfl
  | confirming slot =>
      simp only [advance] at h
      split at h
      · next refers =>
          cases h
          exact .next (.start (table rfl) (by simpa using refers)) rfl rfl
      · next lost =>
          cases h
          exact .next (.retreat (table rfl) (by simpa using lost)) rfl rfl
  | retreating slot =>
      cases h
      exact .retreat
  | starting slot =>
      cases h
      exact .next .make (s.table_beginMaking name maker) (s.slots_beginMaking name maker)
  | making slot script =>
      cases script with
      | finish result =>
          cases result with
          | ok mesh =>
              cases h
              exact .next .publish rfl rfl
          | error e =>
              cases h
              exact .next .fail rfl rfl
      | call request next => cases h
  | publishing slot mesh =>
      cases h
      exact .publish
  | leaving slot m =>
      cases h
      exact .leave
  | failing slot e =>
      cases h
      exact .unlock .fail
  | discarding slot e =>
      simp only [advance] at h
      split at h
      · next refers =>
          cases h
          exact .next (.close (table rfl) (by simpa using refers)) rfl rfl
      · next lost =>
          cases h
          exact .done (.pass (by simpa using lost))
  | trying slot e =>
      simp only [advance] at h
      split at h
      · next held =>
          cases h
          exact .done (.yield held)
      · next unheld =>
          cases h
          exact .lock .attempt (by simpa using unheld)
  | releasing slot e =>
      cases h
      exact .unlock .release
  | inspecting slot e =>
      simp only [advance] at h
      cases hm : s.meshIn slot with
      | some m =>
          simp only [hm, Option.some.injEq, Prod.mk.injEq] at h
          obtain ⟨rfl, rfl⟩ := h
          exact .done (.keep (by simp [hm]))
      | none =>
          simp only [hm, Option.some.injEq, Prod.mk.injEq] at h
          obtain ⟨rfl, rfl⟩ := h
          exact .next (.inspect hm) rfl rfl
  | dropping slot e =>
      cases h
      exact .drop

/-- One section of a call is a move. -/
theorem Activity.move_of_step {a a' : Activity α} (begins : ∀ c, a = .ready c → ok c)
    (table : a.takesTable = true → free) (h : a.step s = some (s', a')) :
    Move ok free (a.view s) (a'.view s') := by
  cases a with
  | ready call =>
      exact move_of_start (begins call rfl) table (by simpa [step] using h)
  | reading call slot =>
      cases h
      exact move_of_reading call slot _
  | listing call rest found =>
      cases rest with
      | nil =>
          cases h
          cases call <;> exact .still rfl rfl
      | cons e rest =>
          cases h
          exact .still rfl rfl
  | emptying slot =>
      cases h
      exact .empty
  | requesting name maker p => exact move_of_advance table h
  | answered reply => cases h

/-- A call made by a loader, and its answer, leave the frames as they are. -/
theorem Thread.exists_moves {t t' : Thread α} (begins : ∀ c, t.now = .ready c → ok c)
    (table : t.now.takesTable = true → free) (h : t.step s = some (s', t')) :
    ∃ v v' waiting, t.Moves ok free s s' t' v v' waiting := by
  unfold Thread.step at h
  split at h
  · cases h
  · next reply p outer hnow houter =>
      cases h
      refine ⟨_, _, t.frames, .still (s := s) rfl rfl, rfl, rfl, rfl, ?_, ?_, rfl⟩
      · simp [Thread.frames, hnow, houter, Thread.resume, Activity.frames, Progress.frames,
          Pending.frame]
      · simp [hnow, Activity.emptied]
  · next name maker slot request next hnow =>
      cases h
      refine ⟨_, _, t.frames, .still (s := s) rfl rfl, rfl, rfl, rfl, ?_, ?_, rfl⟩
      · simp [Thread.frames, hnow, Activity.frames, Progress.frames, Pending.frame]
      · simp [hnow, Activity.emptied]
  · obtain ⟨⟨u, now⟩, hstep, e⟩ := Option.map_eq_some_iff.mp h
    cases e
    exact ⟨_, _, t.outer.map Pending.frame, Activity.move_of_step begins table hstep, rfl, rfl, rfl,
      rfl, rfl, rfl⟩

/-- A thread takes a section if it can, and if it does not have to wait for the table. -/
theorem SharedStore.step_advance_iff {shared shared' : SharedStore α} {i : Nat} :
    shared.step (.advance i) = some shared' ↔ ∃ t t' store, shared.threads[i]? = some t ∧
      (t.now.takesTable = true → shared.isTableFree = true) ∧
      t.step shared.store = some (store, t') ∧
      shared' = { store, threads := shared.threads.set i t' } := by
  simp only [step, Option.bind_eq_bind, Option.bind_eq_some_iff]
  constructor
  · rintro ⟨t, ht, h⟩
    split at h
    · cases h
    · next table =>
        obtain ⟨⟨store, t'⟩, hstep, h⟩ := Option.bind_eq_some_iff.mp h
        cases h
        exact ⟨t, t', store, ht, by simpa using table, hstep, rfl⟩
  · rintro ⟨t, t', store, ht, table, hstep, rfl⟩
    refine ⟨t, ht, ?_⟩
    have : (t.now.takesTable && !shared.isTableFree) = false := by simpa using table
    simp [this, hstep]

/-- **Every event is a move of one thread** among the others. -/
theorem SharedStore.move_of_step {shared shared' : SharedStore α} {event : Event α}
    (begins : ∀ c, shared.begins? event = some c → ok c) (h : shared.step event = some shared') :
    ∃ v v' others emptied, Move ok (shared.isTableFree = true) v v' ∧
      v.Within others emptied shared ∧ v'.Within others emptied shared' := by
  cases event with
  | arrive call =>
      cases h
      refine ⟨_, _, shared.frames, shared.emptied, .still (s := shared.store) rfl rfl,
        ⟨rfl, .refl _, .refl _⟩, ⟨rfl, ?_, ?_⟩⟩
      · simp [frames, Thread.frames, Thread.ofCall, Activity.frames]
      · simp [SharedStore.emptied, Thread.ofCall, Activity.emptied]
  | advance i =>
      obtain ⟨t, t', store, ht, table, hstep, rfl⟩ := step_advance_iff.mp h
      have hnow : ∀ c, t.now = .ready c → ok c := fun c hc => begins c (by simp [begins?, ht, hc])
      obtain ⟨v, v', waiting, hm⟩ := Thread.exists_moves hnow table hstep
      obtain ⟨others, emptied, hv, hv'⟩ := exists_within ht hm
      exact ⟨v, v', others, emptied, hm.move, hv, hv'⟩
  | generate i result =>
      simp only [step, Option.bind_eq_bind, Option.bind_eq_some_iff] at h
      obtain ⟨t, ht, ⟨store, t'⟩, hgen, h⟩ := h
      cases h
      obtain ⟨v, v', waiting, hm⟩ := Thread.exists_moves_of_generate hgen
      obtain ⟨others, emptied, hv, hv'⟩ := exists_within ht hm
      exact ⟨v, v', others, emptied, hm.move, hv, hv'⟩

end Sections

end TriMesh
