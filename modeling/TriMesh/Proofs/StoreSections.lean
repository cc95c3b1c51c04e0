import TriMesh.Store.Calls

/-! # Sections of a store

What each section does to the three views of a store through which calls see it: the slot that a name
refers to (`slotOf?`), the mesh in a slot (`meshIn`) and the state of its writer lock (`isHeld`).

* Sections on the table (`slotFor`, `forget`, `clear`) leave every mesh and every lock as it was; a
  slot that has just been made is empty and free, like a slot that is not there.
* Sections on a slot (`lock`, `unlock`, `publish`, `takeOut`) leave the table as it was.
* `discardEmpty` takes a name out only if its slot is empty and free.
* All else in a store (`rest`, and the journals of runs) changes by publishing, by registering a loader
  and by beginning to make a mesh. -/

namespace TriMesh

/-- The loader run that making a mesh takes, if any. -/
def Maker.loads {α : Type} : Maker α → Array LoaderRun
  | .file path r => #[⟨r.id, path⟩]
  | .finished _ | .generator _ => #[]

/-- The generator run that making a mesh takes, if any. -/
def Maker.generates {α : Type} (name : String) : Maker α → Array (GeneratorRun α)
  | .generator spec => #[⟨name, spec⟩]
  | .finished _ | .file _ _ => #[]

namespace Store

variable {α : Type} (s : Store α) (name other : String) (slot i : Nat)

theorem lookup_filter_ne (l : List (String × Nat)) :
    (l.filter (·.1 != name)).lookup other = if other = name then none else l.lookup other := by
  induction l with
  | nil => simp
  | cons e l ih =>
      obtain ⟨n, j⟩ := e
      by_cases hn : n = name <;> by_cases ho : other = n <;> grind

/-! ### The table -/

@[simp] theorem slotOf?_forget :
    (s.forget name).slotOf? other = if other = name then none else s.slotOf? other :=
  lookup_filter_ne name other s.table

@[simp] theorem slotOf?_clear : s.clear.slotOf? other = none := rfl

theorem slotFor_of_some {s : Store α} {name : String} {slot : Nat} (h : s.slotOf? name = some slot) :
    s.slotFor name = (s, slot) := by
  simp [slotFor, h]

theorem slotFor_of_none {s : Store α} {name : String} (h : s.slotOf? name = none) :
    s.slotFor name = ({ s with table := (name, s.slots.size) :: s.table,
                               slots := s.slots.push {} }, s.slots.size) := by
  simp [slotFor, h]

@[simp] theorem slotOf?_slotFor :
    (s.slotFor name).1.slotOf? other =
      if other = name then some (s.slotFor name).2 else s.slotOf? other := by
  cases h : s.slotOf? name with
  | some slot =>
      rw [slotFor_of_some h]
      split
      · next e => rw [e, h]
      · rfl
  | none =>
      rw [slotFor_of_none h]
      by_cases e : other = name
      · simp [slotOf?, e]
      · have hb : (other == name) = false := beq_false_of_ne e
        simp [slotOf?, List.lookup_cons, e, hb]

theorem slotOf?_slotFor_of_some {s : Store α} {other : String} {i : Nat}
    (h : s.slotOf? other = some i) : (s.slotFor name).1.slotOf? other = some i := by
  rw [slotOf?_slotFor]
  split
  · next e =>
      subst e
      rw [slotFor_of_some h]
  · exact h

theorem size_le_slotFor : s.slots.size ≤ (s.slotFor name).1.slots.size := by
  cases h : s.slotOf? name with
  | some slot => simp [slotFor_of_some h]
  | none => simp [slotFor_of_none h]

/-! ### Meshes and locks -/

@[simp] theorem meshIn_forget : (s.forget name).meshIn i = s.meshIn i := rfl

@[simp] theorem isHeld_forget : (s.forget name).isHeld i = s.isHeld i := rfl

@[simp] theorem size_forget : (s.forget name).slots.size = s.slots.size := rfl

@[simp] theorem meshIn_clear : s.clear.meshIn i = s.meshIn i := rfl

@[simp] theorem isHeld_clear : s.clear.isHeld i = s.isHeld i := rfl

@[simp] theorem size_clear : s.clear.slots.size = s.slots.size := rfl

theorem meshIn_of_size_le {s : Store α} {i : Nat} (h : s.slots.size ≤ i) : s.meshIn i = none := by
  simp [meshIn, Array.getElem?_eq_none h]

theorem isHeld_of_size_le {s : Store α} {i : Nat} (h : s.slots.size ≤ i) : s.isHeld i = false := by
  simp [isHeld, Array.getElem?_eq_none h]

theorem lt_of_isHeld {s : Store α} {i : Nat} (h : s.isHeld i = true) : i < s.slots.size := by
  refine Nat.lt_of_not_le fun hi => ?_
  rw [isHeld_of_size_le hi] at h
  cases h

@[simp] theorem meshIn_slotFor : (s.slotFor name).1.meshIn i = s.meshIn i := by
  cases h : s.slotOf? name with
  | some slot => rw [slotFor_of_some h]
  | none =>
      rw [slotFor_of_none h]
      by_cases hi : i = s.slots.size <;> simp [meshIn, Array.getElem?_push, hi]

@[simp] theorem isHeld_slotFor : (s.slotFor name).1.isHeld i = s.isHeld i := by
  cases h : s.slotOf? name with
  | some slot => rw [slotFor_of_some h]
  | none =>
      rw [slotFor_of_none h]
      by_cases hi : i = s.slots.size <;> simp [isHeld, Array.getElem?_push, hi]

@[simp] theorem slotOf?_modifySlot (f : Slot α → Slot α) :
    (s.modifySlot slot f).slotOf? name = s.slotOf? name := rfl

@[simp] theorem size_modifySlot (f : Slot α → Slot α) :
    (s.modifySlot slot f).slots.size = s.slots.size := by
  simp [modifySlot]

theorem meshIn_modifySlot_of_mesh {f : Slot α → Slot α} (h : ∀ x, (f x).mesh = x.mesh) :
    (s.modifySlot slot f).meshIn i = s.meshIn i := by
  simp only [meshIn, modifySlot, Array.getElem?_modify]
  split
  · cases s.slots[i]? <;> simp [h]
  · rfl

theorem isHeld_modifySlot_of_held {f : Slot α → Slot α} (h : ∀ x, (f x).held = x.held) :
    (s.modifySlot slot f).isHeld i = s.isHeld i := by
  simp only [isHeld, modifySlot, Array.getElem?_modify]
  split
  · cases s.slots[i]? <;> simp [h]
  · rfl

@[simp] theorem slotOf?_lock : (s.lock slot).slotOf? name = s.slotOf? name := rfl

@[simp] theorem meshIn_lock : (s.lock slot).meshIn i = s.meshIn i :=
  meshIn_modifySlot_of_mesh s slot i fun _ => rfl

@[simp] theorem size_lock : (s.lock slot).slots.size = s.slots.size := size_modifySlot s slot _

theorem isHeld_lock {slot : Nat} (h : slot < s.slots.size) :
    (s.lock slot).isHeld i = if i = slot then true else s.isHeld i := by
  simp only [isHeld, lock, modifySlot, Array.getElem?_modify]
  by_cases e : i = slot
  · subst e
    simp [h]
  · simp [e, Ne.symm e]

@[simp] theorem slotOf?_unlock : (s.unlock slot).slotOf? name = s.slotOf? name := rfl

@[simp] theorem meshIn_unlock : (s.unlock slot).meshIn i = s.meshIn i :=
  meshIn_modifySlot_of_mesh s slot i fun _ => rfl

@[simp] theorem size_unlock : (s.unlock slot).slots.size = s.slots.size := size_modifySlot s slot _

@[simp] theorem isHeld_unlock :
    (s.unlock slot).isHeld i = if i = slot then false else s.isHeld i := by
  simp only [isHeld, unlock, modifySlot, Array.getElem?_modify]
  by_cases e : i = slot
  · subst e
    cases s.slots[i]? <;> simp
  · simp [e, Ne.symm e]

@[simp] theorem slotOf?_publish (mesh : Mesh α) :
    (s.publish slot mesh).1.slotOf? name = s.slotOf? name := rfl

@[simp] theorem isHeld_publish (mesh : Mesh α) : (s.publish slot mesh).1.isHeld i = s.isHeld i :=
  isHeld_modifySlot_of_held s slot i fun _ => rfl

@[simp] theorem size_publish (mesh : Mesh α) :
    (s.publish slot mesh).1.slots.size = s.slots.size := size_modifySlot s slot _

theorem meshIn_publish (mesh : Mesh α) {slot : Nat} (h : slot < s.slots.size) :
    (s.publish slot mesh).1.meshIn i =
      if i = slot then some ⟨s.published, mesh⟩ else s.meshIn i := by
  simp only [meshIn, publish, modifySlot, Array.getElem?_modify]
  by_cases e : i = slot
  · subst e
    simp [h]
  · simp [e, Ne.symm e]

@[simp] theorem slotOf?_takeOut : (s.takeOut slot).2.slotOf? name = s.slotOf? name := rfl

@[simp] theorem isHeld_takeOut : (s.takeOut slot).2.isHeld i = s.isHeld i :=
  isHeld_modifySlot_of_held s slot i fun _ => rfl

@[simp] theorem size_takeOut : (s.takeOut slot).2.slots.size = s.slots.size := size_modifySlot s slot _

@[simp] theorem meshIn_takeOut :
    (s.takeOut slot).2.meshIn i = if i = slot then none else s.meshIn i := by
  simp only [meshIn, takeOut, modifySlot, Array.getElem?_modify]
  by_cases e : i = slot
  · subst e
    cases s.slots[i]? <;> simp
  · simp [e, Ne.symm e]

/-! ### Discarding -/

@[simp] theorem meshIn_discardEmpty : (s.discardEmpty name slot).meshIn i = s.meshIn i := by
  unfold discardEmpty
  split <;> rfl

@[simp] theorem isHeld_discardEmpty : (s.discardEmpty name slot).isHeld i = s.isHeld i := by
  unfold discardEmpty
  split <;> rfl

@[simp] theorem size_discardEmpty : (s.discardEmpty name slot).slots.size = s.slots.size := by
  unfold discardEmpty
  split <;> rfl

@[simp] theorem isRegistered_iff : s.isRegistered name slot = true ↔ s.slotOf? name = some slot := by
  simp [isRegistered]

/-- A name is discarded with its slot, empty and free, or nothing happens. -/
theorem slotOf?_discardEmpty :
    (s.discardEmpty name slot).slotOf? other =
      if other = name ∧ s.slotOf? name = some slot ∧ s.isHeld slot = false ∧ s.meshIn slot = none
      then none else s.slotOf? other := by
  unfold discardEmpty
  by_cases hr : s.slotOf? name = some slot <;> by_cases hh : s.isHeld slot <;>
    by_cases hm : s.meshIn slot = none <;> simp [isRegistered, hr, hh, hm]

/-! ### Beyond the slots -/

/-- A store without its names, slots and journals. -/
def rest (s : Store α) : Store α :=
  { s with table := [], slots := #[], journal := #[], generated := #[] }

@[simp] theorem rest_slotFor : (s.slotFor name).1.rest = s.rest := by
  cases h : s.slotOf? name <;> simp [slotFor, h, rest]

@[simp] theorem rest_forget : (s.forget name).rest = s.rest := rfl

@[simp] theorem rest_lock : (s.lock slot).rest = s.rest := rfl

@[simp] theorem rest_unlock : (s.unlock slot).rest = s.rest := rfl

@[simp] theorem rest_discardEmpty : (s.discardEmpty name slot).rest = s.rest := by
  unfold discardEmpty
  split <;> rfl

@[simp] theorem journal_slotFor : (s.slotFor name).1.journal = s.journal := by
  cases h : s.slotOf? name <;> simp [slotFor, h]

@[simp] theorem journal_discardEmpty : (s.discardEmpty name slot).journal = s.journal := by
  unfold discardEmpty
  split <;> rfl

@[simp] theorem generated_slotFor : (s.slotFor name).1.generated = s.generated := by
  cases h : s.slotOf? name <;> simp [slotFor, h]

@[simp] theorem generated_discardEmpty : (s.discardEmpty name slot).generated = s.generated := by
  unfold discardEmpty
  split <;> rfl

theorem loaders_of_rest {s t : Store α} (h : s.rest = t.rest) : s.loaders = t.loaders := by
  show s.rest.loaders = t.rest.loaders
  rw [h]

theorem registered_of_rest {s t : Store α} (h : s.rest = t.rest) : s.registered = t.registered := by
  show s.rest.registered = t.rest.registered
  rw [h]

theorem published_of_rest {s t : Store α} (h : s.rest = t.rest) : s.published = t.published := by
  show s.rest.published = t.rest.published
  rw [h]

theorem triangulate_of_rest {s t : Store α} (h : s.rest = t.rest) : s.triangulate = t.triangulate := by
  show s.rest.triangulate = t.rest.triangulate
  rw [h]

/-! ### Beginning to make a mesh -/

section

variable [Scalar α] (maker : Maker α)

@[simp] theorem table_beginMaking : (s.beginMaking name maker).2.table = s.table := by
  cases maker <;> rfl

@[simp] theorem slots_beginMaking : (s.beginMaking name maker).2.slots = s.slots := by
  cases maker <;> rfl

@[simp] theorem rest_beginMaking : (s.beginMaking name maker).2.rest = s.rest := by
  cases maker <;> rfl

@[simp] theorem journal_beginMaking :
    (s.beginMaking name maker).2.journal = s.journal ++ maker.loads := by
  cases maker <;> simp [beginMaking, noteGenerator, Maker.loads]

@[simp] theorem generated_beginMaking :
    (s.beginMaking name maker).2.generated = s.generated ++ maker.generates name := by
  cases maker <;> simp [beginMaking, noteGenerator, Maker.generates]

@[simp] theorem slotOf?_beginMaking :
    (s.beginMaking name maker).2.slotOf? other = s.slotOf? other := by
  simp [slotOf?]

@[simp] theorem meshIn_beginMaking : (s.beginMaking name maker).2.meshIn i = s.meshIn i := by
  simp [meshIn]

@[simp] theorem isHeld_beginMaking : (s.beginMaking name maker).2.isHeld i = s.isHeld i := by
  simp [isHeld]

end

/-! ### Queries -/

theorem get_eq_some_iff {s : Store α} {name : String} {h : Handle α} :
    s.get name = some h ↔ ∃ slot, s.slotOf? name = some slot ∧ s.meshIn slot = some h := by
  simp [get, Option.bind_eq_some_iff]

theorem get_of_slotOf? {s : Store α} {name : String} {slot : Nat} (h : s.slotOf? name = some slot) :
    s.get name = s.meshIn slot := by
  simp [get, h]

theorem get_of_slotOf?_none {s : Store α} {name : String} (h : s.slotOf? name = none) :
    s.get name = none := by
  simp [get, h]

end Store

end TriMesh
