import TriMesh.Proofs.StoreSections

/-! # States of a store

Which states a store comes to be in when calls, also calls of loaders, come one after the other.

* `Sound`: no name stands twice in the table, and no slot.  `Steady`: beside that a slot that a name
  refers to has its mesh, or is held by the load further out that is filling it.
* A call that is answered keeps a store steady whatever its loaders do: they may remove any name,
  clear the store or ask for the very mesh that is being loaded (`answer_steady`).
* `Evolves` is what every call leaves alone: locks are given back, slots do not change hands, and a
  slot that is held keeps what it has.
* A request has three cases (`request_of_get`, `request_of_pending`, `request_of_absent`).
* `Occurs chain` are the states of a store between calls and inside of loads, where `chain` are the
  paths being loaded, from the inside out (`Occurs.resting`). -/

namespace TriMesh

namespace Outcome

variable {α β γ : Type}

@[simp] theorem andThen_done (value : β) (s : Store α) (f : β → Store α → Outcome α γ) :
    (done value s).andThen f = f value s := rfl

@[simp] theorem andThen_stalled (why : Stall) (f : β → Store α → Outcome α γ) :
    (stalled why).andThen f = stalled why := rfl

@[simp] theorem map_done (value : β) (s : Store α) (f : β → γ) :
    (done value s).map f = done (f value) s := rfl

theorem andThen_eq_done {o : Outcome α β} {f : β → Store α → Outcome α γ} {value : γ} {t : Store α} :
    o.andThen f = done value t ↔ ∃ v s, o = done v s ∧ f v s = done value t := by
  cases o with
  | done v s => exact ⟨fun h => ⟨v, s, rfl, h⟩, fun ⟨_, _, e, h⟩ => by cases e; exact h⟩
  | stalled why => simp

theorem map_eq_done {o : Outcome α β} {f : β → γ} {value : γ} {t : Store α} :
    o.map f = done value t ↔ ∃ v, o = done v t ∧ f v = value := by
  cases o
  · simp only [map_done, done.injEq]
    grind
  · simp [map]

end Outcome

namespace Store

variable {α : Type}

/-! ### Sound tables -/

/-- A name refers to one slot at most, and a slot is referred to by one name at most. -/
structure Sound (s : Store α) : Prop where
  nodup : (s.table.map (·.1)).Nodup
  lt {name : String} {slot : Nat} : s.slotOf? name = some slot → slot < s.slots.size
  inj {name other : String} {slot : Nat} :
    s.slotOf? name = some slot → s.slotOf? other = some slot → name = other

theorem notMem_of_slotOf?_none {s : Store α} {name : String} (h : s.slotOf? name = none) :
    name ∉ s.table.map (·.1) := by
  intro hm
  obtain ⟨e, he, rfl⟩ := List.mem_map.mp hm
  have hn := List.lookup_eq_none_iff.mp h e he
  simp at hn

theorem Sound.of_table {s t : Store α} (hs : s.Sound) (table : t.table = s.table)
    (size : s.slots.size ≤ t.slots.size) : t.Sound where
  nodup := table ▸ hs.nodup
  lt h := Nat.lt_of_lt_of_le (hs.lt (by simpa [slotOf?, table] using h)) size
  inj h h' := hs.inj (by simpa [slotOf?, table] using h) (by simpa [slotOf?, table] using h')

theorem Sound.forget {s : Store α} (hs : s.Sound) (name : String) : (s.forget name).Sound where
  nodup := by
    have hsub : List.Sublist (s.forget name).table s.table := List.filter_sublist
    exact hs.nodup.sublist (hsub.map _)
  lt {n slot} h := by
    rw [slotOf?_forget] at h
    split at h
    · cases h
    · exact hs.lt h
  inj {n m slot} h h' := by
    rw [slotOf?_forget] at h h'
    split at h
    · cases h
    · split at h'
      · cases h'
      · exact hs.inj h h'

theorem Sound.clear {s : Store α} : s.clear.Sound where
  nodup := by simp [Store.clear]
  lt h := by simp at h
  inj h := by simp at h

theorem Sound.slotFor_lt {s : Store α} (hs : s.Sound) (name : String) :
    (s.slotFor name).2 < (s.slotFor name).1.slots.size := by
  cases h : s.slotOf? name with
  | some slot =>
      rw [slotFor_of_some h]
      exact hs.lt h
  | none => simp [slotFor_of_none h]

/-- The slot of a name is its own, also if it is new: no name refers to a slot that is not there. -/
theorem Sound.slotFor {s : Store α} (hs : s.Sound) (name : String) : (s.slotFor name).1.Sound := by
  cases h : s.slotOf? name with
  | some slot =>
      rw [slotFor_of_some h]
      exact hs
  | none =>
      have hlt := hs.slotFor_lt name
      have hfresh : ∀ n, s.slotOf? n ≠ some (s.slotFor name).2 := by
        intro n hn
        have := hs.lt hn
        simp [slotFor_of_none h] at this
      refine ⟨?_, ?_, ?_⟩
      · simp only [slotFor_of_none h, List.map_cons, List.nodup_cons]
        exact ⟨notMem_of_slotOf?_none h, hs.nodup⟩
      · intro n i hn
        rw [slotOf?_slotFor] at hn
        split at hn
        · cases hn
          exact hlt
        · exact Nat.lt_of_lt_of_le (hs.lt hn) (size_le_slotFor s name)
      · intro n m i hn hm
        rw [slotOf?_slotFor] at hn hm
        split at hn <;> split at hm
        · next e e' => rw [e, e']
        · cases hn
          exact absurd hm (hfresh m)
        · cases hm
          exact absurd hn (hfresh n)
        · exact hs.inj hn hm

theorem Sound.discardEmpty {s : Store α} (hs : s.Sound) (name : String) (slot : Nat) :
    (s.discardEmpty name slot).Sound := by
  unfold Store.discardEmpty
  split
  · exact hs.forget name
  · exact hs

/-! ### Requests -/

/-- The store when the mesh of a new name begins to be made, and what is still to do. -/
def begun [Scalar α] (s : Store α) (name : String) (maker : Maker α) : Script α × Store α :=
  ((s.slotFor name).1.lock (s.slotFor name).2).beginMaking name maker

/-- What becomes of a slot and its lock once making the mesh has come to a result. -/
def conclude (s : Store α) (name : String) (slot : Nat) :
    Except MeshError (Mesh α) → Except MeshError (Handle α) × Store α
  | .ok mesh =>
    (.ok ⟨s.published, mesh.rename name⟩, (s.publish slot (mesh.rename name)).1.unlock slot)
  | .error e => (.error e, (s.unlock slot).discardEmpty name slot)

section Requests

variable [Scalar α] {s : Store α} {name : String}
  (run : Script α → Store α → Outcome α (Except MeshError (Mesh α))) (maker : Maker α)

theorem request_of_get {h : Handle α} (hg : s.get name = some h) :
    s.request run name maker = .done (.ok h) s := by
  obtain ⟨slot, hs, hm⟩ := get_eq_some_iff.mp hg
  simp [request, slotFor_of_some hs, hm]

theorem request_of_pending {slot : Nat} (hs : s.slotOf? name = some slot)
    (hm : s.meshIn slot = none) (hh : s.isHeld slot = true) :
    s.request run name maker = .stalled .deadlock := by
  simp [request, slotFor_of_some hs, hm, hh]

theorem request_of_absent (hs : s.slotOf? name = none) :
    s.request run name maker =
      (run (s.begun name maker).1 (s.begun name maker).2).andThen fun result t =>
        .done (t.conclude name s.slots.size result).1 (t.conclude name s.slots.size result).2 := by
  have hm : (s.slotFor name).1.meshIn s.slots.size = none := by
    rw [meshIn_slotFor, meshIn_of_size_le (Nat.le_refl _)]
  have hh : (s.slotFor name).1.isHeld s.slots.size = false := by
    rw [isHeld_slotFor, isHeld_of_size_le (Nat.le_refl _)]
  have hslot : (s.slotFor name).2 = s.slots.size := by simp [slotFor_of_none hs]
  simp only [request, begun, hslot, hm, hh, Bool.false_eq_true, if_false]
  congr 1
  funext result t
  cases result <;> rfl

end Requests

/-- The name and the maker of a call that asks for a mesh. -/
def making? (s : Store α) : Call α → Option (String × Maker α)
  | .addMesh mesh => some (mesh.name, .finished mesh)
  | .getOrCreate name spec => some (name, .generator spec)
  | .createExtruded name extrusion => some (name, .generator (.extrudedPolyline extrusion))
  | .load path => (s.dispatch path).toOption.map fun r => (path, .file path r)
  | _ => none

theorem dispatch_eq_ok_iff {s : Store α} {path : String} {r : Registration α} :
    s.dispatch path = .ok r ↔
      ∃ format, Format.ofPath path = .ok format ∧ s.loaders format = some r := by
  unfold dispatch
  cases hf : Format.ofPath path with
  | error e => simp [bind, Except.bind]
  | ok format => cases hl : s.loaders format <;> simp [bind, Except.bind, hl]

theorem registered_of_making? {s : Store α} {c : Call α} {name path : String} {r : Registration α}
    (h : s.making? c = some (name, .file path r)) : ∃ format, s.loaders format = some r := by
  cases c with
  | load p =>
      simp only [making?] at h
      cases hd : s.dispatch p with
      | error e => simp [hd, Except.toOption] at h
      | ok r' =>
          simp only [hd, Except.toOption, Option.map_some, Option.some.injEq, Prod.mk.injEq,
            Maker.file.injEq] at h
          obtain ⟨format, -, hr⟩ := dispatch_eq_ok_iff.mp hd
          exact ⟨format, h.2.2 ▸ hr⟩
  | _ => simp [making?] at h

section Making

variable [Scalar α]

/-- Every call for a mesh is one request, also the one that looks the name up before. -/
theorem answer_of_making? {s : Store α} {c : Call α} {name : String} {maker : Maker α}
    (h : s.making? c = some (name, maker)) (depth : Nat) :
    s.answer (depth + 1) c = (s.request (Script.run (answer depth)) name maker).map .made := by
  cases c with
  | addMesh mesh | getOrCreate n spec =>
      cases h
      rfl
  | createExtruded n extrusion =>
      cases h
      simp only [answer]
      cases hg : s.get name with
      | some m => simp [request_of_get _ _ hg]
      | none => rfl
  | load path =>
      simp only [making?] at h
      simp only [answer]
      cases hd : s.dispatch path with
      | error e => simp [hd, Except.toOption] at h
      | ok r =>
          simp only [hd, Except.toOption, Option.map_some, Option.some.injEq, Prod.mk.injEq] at h
          obtain ⟨rfl, rfl⟩ := h
          rfl
  | _ => cases h

theorem script_begun_file (s : Store α) (name path : String) (r : Registration α) :
    (s.begun name (.file path r)).1 = r.loader (s.runs r.id) path := by
  simp [begun, beginMaking, runs, lock, modifySlot]

/-- The triangulator of a generator is told how often it has run. -/
theorem script_begun_generator (s : Store α) (name : String) (spec : MeshSpec α) :
    (s.begun name (.generator spec)).1 =
      .finish (spec.build name (s.triangulate s.triangulations)) := by
  have htriangulate : (s.slotFor name).1.triangulate = s.triangulate :=
    triangulate_of_rest (rest_slotFor s name)
  simp [begun, beginMaking, triangulations, lock, modifySlot, htriangulate]

@[simp] theorem journal_begun (s : Store α) (name : String) (maker : Maker α) :
    (s.begun name maker).2.journal = s.journal ++ maker.loads := by
  simp [begun, lock, modifySlot]

@[simp] theorem generated_begun (s : Store α) (name : String) (maker : Maker α) :
    (s.begun name maker).2.generated = s.generated ++ maker.generates name := by
  simp [begun, lock, modifySlot]

end Making

/-! ### Steady stores -/

/-- Registrations are numbered in the order in which they come. -/
structure Numbered (s : Store α) : Prop where
  id_lt {format : Format} {r : Registration α} : s.loaders format = some r → r.id < s.registered
  id_inj {format other : Format} {r r' : Registration α} :
    s.loaders format = some r → s.loaders other = some r' → r.id = r'.id → r = r'

theorem Numbered.of_loaders {s t : Store α} (hs : s.Numbered) (loaders : t.loaders = s.loaders)
    (registered : t.registered = s.registered) : t.Numbered where
  id_lt h := registered ▸ hs.id_lt (loaders ▸ h)
  id_inj h h' := hs.id_inj (loaders ▸ h) (loaders ▸ h')

theorem Numbered.of_rest {s t : Store α} (hs : s.Numbered) (h : t.rest = s.rest) : t.Numbered :=
  hs.of_loaders (loaders_of_rest h) (registered_of_rest h)

theorem Numbered.register {s : Store α} (hs : s.Numbered) (format : Format) (loader : Loader α) :
    (s.register format loader).Numbered where
  id_lt {f r} h := by
    simp only [Store.register] at h ⊢
    split at h
    · cases h
      exact Nat.lt_succ_self _
    · exact Nat.lt_succ_of_lt (hs.id_lt h)
  id_inj {f f' r r'} h h' e := by
    simp only [Store.register] at h h'
    split at h <;> split at h'
    · cases h
      cases h'
      rfl
    · cases h
      exact absurd e (Nat.ne_of_gt (hs.id_lt h'))
    · cases h'
      exact absurd e (Nat.ne_of_lt (hs.id_lt h))
    · exact hs.id_inj h h' e

/-- A slot that a name refers to has its mesh, or is held by the load that is filling it. -/
structure Steady (s : Store α) : Prop extends s.Sound, s.Numbered where
  held {name : String} {slot : Nat} :
    s.slotOf? name = some slot → (s.isHeld slot = true ↔ s.meshIn slot = none)

/-- What every answered call leaves alone. -/
structure Evolves (s t : Store α) : Prop where
  size_le : s.slots.size ≤ t.slots.size
  isHeld_eq (i : Nat) : t.isHeld i = s.isHeld i
  slotOf?_old {name : String} {slot : Nat} :
    slot < s.slots.size → t.slotOf? name = some slot → s.slotOf? name = some slot
  meshIn_none {i : Nat} : s.isHeld i = true → s.meshIn i = none → t.meshIn i = none

theorem Evolves.refl (s : Store α) : s.Evolves s :=
  ⟨Nat.le_refl _, fun _ => rfl, fun _ h => h, fun _ h => h⟩

theorem Evolves.trans {s t u : Store α} (h : s.Evolves t) (h' : t.Evolves u) : s.Evolves u where
  size_le := Nat.le_trans h.size_le h'.size_le
  isHeld_eq i := (h'.isHeld_eq i).trans (h.isHeld_eq i)
  slotOf?_old hlt hu := h.slotOf?_old hlt (h'.slotOf?_old (Nat.lt_of_lt_of_le hlt h.size_le) hu)
  meshIn_none hi hm := h'.meshIn_none ((h.isHeld_eq _).trans hi) (h.meshIn_none hi hm)

/-- A name has its mesh, is being filled further out, or is new. -/
theorem Steady.cases {s : Store α} (hs : s.Steady) (name : String) :
    (∃ h, s.get name = some h) ∨
      (∃ slot, s.slotOf? name = some slot ∧ s.meshIn slot = none ∧ s.isHeld slot = true) ∨
      s.slotOf? name = none := by
  cases hn : s.slotOf? name with
  | none => exact .inr (.inr rfl)
  | some slot =>
      cases hm : s.meshIn slot with
      | none => exact .inr (.inl ⟨slot, rfl, hm, (hs.held hn).mpr hm⟩)
      | some h => exact .inl ⟨h, get_eq_some_iff.mpr ⟨slot, hn, hm⟩⟩

theorem Steady.remove {s : Store α} (hs : s.Steady) (name : String) :
    (s.remove name).2.Steady ∧ s.Evolves (s.remove name).2 := by
  unfold Store.remove
  cases hn : s.slotOf? name with
  | none => exact ⟨hs, .refl s⟩
  | some slot =>
      -- the slot that loses its mesh is no longer referred to
      have hne : ∀ {m i}, (s.forget name).slotOf? m = some i → s.slotOf? m = some i ∧ i ≠ slot := by
        intro m i hm
        rw [slotOf?_forget] at hm
        split at hm
        · cases hm
        · next e => exact ⟨hm, fun h => e (hs.inj (h ▸ hm) hn)⟩
      refine ⟨⟨(hs.forget name).of_table rfl (by simp), hs.toNumbered.of_rest rfl, ?_⟩, ?_⟩
      · intro m i hm
        obtain ⟨hm, hi⟩ := hne hm
        simpa [hi] using hs.held hm
      · refine ⟨by simp, by simp, fun _ hm => (hne hm).1, ?_⟩
        intro i _ hmesh
        simp [hmesh]

theorem Steady.register {s : Store α} (hs : s.Steady) (format : Format) (loader : Loader α) :
    (s.register format loader).Steady :=
  ⟨hs.toSound.of_table rfl (Nat.le_refl _), hs.toNumbered.register format loader, hs.held⟩

/-! ### Making a mesh -/

section Begun

variable [Scalar α] {s : Store α} {name : String} (maker : Maker α)

theorem slotOf?_begun (other : String) :
    (s.begun name maker).2.slotOf? other =
      if other = name then some (s.slotFor name).2 else s.slotOf? other := by
  simp [begun]

theorem meshIn_begun (i : Nat) : (s.begun name maker).2.meshIn i = s.meshIn i := by
  simp [begun]

theorem Sound.isHeld_begun (hs : s.Sound) (i : Nat) :
    (s.begun name maker).2.isHeld i = if i = (s.slotFor name).2 then true else s.isHeld i := by
  simp [begun, isHeld_lock _ _ (hs.slotFor_lt name)]

theorem size_begun (hn : s.slotOf? name = none) :
    (s.begun name maker).2.slots.size = s.slots.size + 1 := by
  simp [begun, slotFor_of_none hn]

@[simp] theorem rest_begun : (s.begun name maker).2.rest = s.rest := by
  simp [begun]

theorem Steady.begun (hs : s.Steady) (hn : s.slotOf? name = none) :
    (s.begun name maker).2.Steady := by
  have hslot : (s.slotFor name).2 = s.slots.size := by simp [slotFor_of_none hn]
  refine ⟨(hs.toSound.slotFor name).of_table (by simp [Store.begun, lock, modifySlot]) ?_,
    hs.toNumbered.of_rest (rest_begun maker), ?_⟩
  · simp [Store.begun]
  · intro m i hm
    rw [slotOf?_begun] at hm
    rw [hs.toSound.isHeld_begun, meshIn_begun, hslot]
    split at hm
    · cases hm
      simp [hslot, meshIn_of_size_le]
    · have hne : i ≠ s.slots.size := Nat.ne_of_lt (hs.lt hm)
      simpa [hne] using hs.held hm

end Begun

section Conclude

variable {s : Store α} {name : String} {slot : Nat}

theorem isHeld_conclude (result : Except MeshError (Mesh α)) (i : Nat) :
    (s.conclude name slot result).2.isHeld i = if i = slot then false else s.isHeld i := by
  cases result <;> simp [conclude]

theorem size_conclude (result : Except MeshError (Mesh α)) :
    (s.conclude name slot result).2.slots.size = s.slots.size := by
  cases result <;> simp [conclude]

theorem loaders_conclude (result : Except MeshError (Mesh α)) :
    (s.conclude name slot result).2.loaders = s.loaders := by
  cases result with
  | ok mesh => rfl
  | error e => exact loaders_of_rest (rest_discardEmpty _ name slot)

theorem registered_conclude (result : Except MeshError (Mesh α)) :
    (s.conclude name slot result).2.registered = s.registered := by
  cases result with
  | ok mesh => rfl
  | error e => exact registered_of_rest (rest_discardEmpty _ name slot)

theorem meshIn_conclude_of_ne (result : Except MeshError (Mesh α)) (hlt : slot < s.slots.size)
    {i : Nat} (hi : i ≠ slot) : (s.conclude name slot result).2.meshIn i = s.meshIn i := by
  cases result <;> simp [conclude, meshIn_publish _ _ _ hlt, hi]

/-- A concluded slot has its mesh, or the name has lost it. -/
theorem slotOf?_conclude (result : Except MeshError (Mesh α)) {other : String} {i : Nat}
    (h : (s.conclude name slot result).2.slotOf? other = some i) :
    s.slotOf? other = some i := by
  cases result with
  | ok mesh => simpa [conclude] using h
  | error e =>
      simp only [conclude, slotOf?_discardEmpty] at h
      split at h
      · cases h
      · simpa using h

end Conclude

section Concluding

variable [Scalar α] {s t : Store α} {name : String} {maker : Maker α}

theorem Evolves.lt_of_begun (ev : (s.begun name maker).2.Evolves t) (hn : s.slotOf? name = none) :
    s.slots.size < t.slots.size := by
  have hsize := size_begun (s := s) maker hn
  have := ev.size_le
  omega

/-- While a mesh is being made, only its name refers to a slot that has not been there before. -/
theorem Evolves.slotOf?_of_begun (ev : (s.begun name maker).2.Evolves t)
    (hn : s.slotOf? name = none) {other : String} {i : Nat} (hi : i ≤ s.slots.size)
    (h : t.slotOf? other = some i) :
    other = name ∧ i = s.slots.size ∨ s.slotOf? other = some i := by
  have hsize := size_begun (s := s) maker hn
  have hold := ev.slotOf?_old (by omega) h
  rw [slotOf?_begun, slotFor_of_none hn] at hold
  split at hold
  · next e => exact .inl ⟨e, (Option.some.inj hold).symm⟩
  · exact .inr hold

theorem Steady.conclude (hs : s.Steady) (hn : s.slotOf? name = none) (ht : t.Steady)
    (ev : (s.begun name maker).2.Evolves t) (result : Except MeshError (Mesh α)) :
    (t.conclude name s.slots.size result).2.Steady := by
  refine ⟨?_, ht.toNumbered.of_loaders (loaders_conclude result) (registered_conclude result), ?_⟩
  · cases result with
    | ok mesh => exact ht.toSound.of_table rfl (by simp [Store.conclude])
    | error e =>
        have hu : (t.unlock s.slots.size).Sound := ht.toSound.of_table rfl (by simp)
        exact hu.discardEmpty name _
  · intro m i hm
    have hlt := ev.lt_of_begun hn
    have hm' := slotOf?_conclude result hm
    by_cases hi : i = s.slots.size
    · subst hi
      obtain ⟨rfl, -⟩ | hold := ev.slotOf?_of_begun hn (Nat.le_refl _) hm'
      · -- an empty slot has been discarded, so the name cannot refer to it
        cases result with
        | ok mesh => simp [Store.conclude, meshIn_publish _ _ _ hlt]
        | error e =>
            simp only [Store.conclude, slotOf?_discardEmpty] at hm
            simp only [Store.conclude, isHeld_discardEmpty, isHeld_unlock, if_true,
              meshIn_discardEmpty, meshIn_unlock, Bool.false_eq_true, false_iff]
            intro hmesh
            simp [hm', hmesh] at hm
      · exact absurd (hs.lt hold) (Nat.lt_irrefl _)
    · rw [isHeld_conclude, if_neg hi, meshIn_conclude_of_ne result hlt hi]
      exact ht.held hm'

/-- Concluding undoes the lock, and whatever has happened in between was done to other slots. -/
theorem Steady.evolves_conclude (hs : s.Steady) (hn : s.slotOf? name = none)
    (ev : (s.begun name maker).2.Evolves t) (result : Except MeshError (Mesh α)) :
    s.Evolves (t.conclude name s.slots.size result).2 := by
  have hslot : (s.slotFor name).2 = s.slots.size := by simp [slotFor_of_none hn]
  have hlt := ev.lt_of_begun hn
  refine ⟨?_, ?_, ?_, ?_⟩
  · rw [size_conclude]
    exact Nat.le_of_lt hlt
  · intro i
    rw [isHeld_conclude, ev.isHeld_eq, hs.toSound.isHeld_begun, hslot]
    split
    · next e => rw [e, isHeld_of_size_le (Nat.le_refl _)]
    · rfl
  · intro m i hi hm
    obtain ⟨-, rfl⟩ | hold :=
      ev.slotOf?_of_begun hn (Nat.le_of_lt hi) (slotOf?_conclude result hm)
    · exact absurd hi (Nat.lt_irrefl _)
    · exact hold
  · intro i hi hmesh
    have hne : i ≠ s.slots.size := Nat.ne_of_lt (lt_of_isHeld hi)
    rw [meshIn_conclude_of_ne result hlt hne]
    apply ev.meshIn_none
    · rw [hs.toSound.isHeld_begun, hslot, if_neg hne, hi]
    · rw [meshIn_begun, hmesh]

end Concluding

/-! ### Calls -/

/-- Calls answered in a certain way keep a store steady. -/
def KeepsSteady (answer : Store α → Call α → Outcome α (Reply α)) : Prop :=
  ∀ s c reply t, s.Steady → answer s c = .done reply t → t.Steady ∧ s.Evolves t

theorem KeepsSteady.run {answer : Store α → Call α → Outcome α (Reply α)}
    (keeps : KeepsSteady answer) : ∀ (script : Script α) {s t : Store α} {result},
    s.Steady → script.run answer s = .done result t → t.Steady ∧ s.Evolves t
  | .finish _, s, t, result, hs, h => by
      simp only [Script.run, Outcome.done.injEq] at h
      obtain ⟨rfl, rfl⟩ := h
      exact ⟨hs, .refl s⟩
  | .call request next, s, t, result, hs, h => by
      obtain ⟨reply, u, hu, ht⟩ := Outcome.andThen_eq_done.mp h
      obtain ⟨su, eu⟩ := keeps _ _ _ _ hs hu
      obtain ⟨st, et⟩ := keeps.run (next reply) su ht
      exact ⟨st, eu.trans et⟩

section Calls

variable [Scalar α]

theorem KeepsSteady.request {answer : Store α → Call α → Outcome α (Reply α)}
    (keeps : KeepsSteady answer) {s t : Store α} {name : String} {maker : Maker α}
    {result : Except MeshError (Handle α)} (hs : s.Steady)
    (h : s.request (Script.run answer) name maker = .done result t) : t.Steady ∧ s.Evolves t := by
  obtain ⟨m, hg⟩ | ⟨slot, hn, hm, hh⟩ | hn := hs.cases name
  · rw [request_of_get _ _ hg] at h
    cases h
    exact ⟨hs, .refl s⟩
  · rw [request_of_pending _ _ hn hm hh] at h
    cases h
  · rw [request_of_absent _ _ hn] at h
    obtain ⟨made, u, hu, h⟩ := Outcome.andThen_eq_done.mp h
    cases h
    obtain ⟨su, eu⟩ := keeps.run _ (hs.begun maker hn) hu
    exact ⟨hs.conclude hn su eu made, hs.evolves_conclude hn eu made⟩

/-- However its loaders act, an answered call leaves a steady store steady. -/
theorem answer_steady : ∀ depth : Nat, KeepsSteady (α := α) (answer depth)
  | 0, s, c, reply, t, _, h => by simp [answer] at h
  | depth + 1, s, c, reply, t, hs, h => by
      have request : ∀ {name maker reply t},
          (s.request (Script.run (answer depth)) name maker).map Reply.made = .done reply t →
            t.Steady ∧ s.Evolves t := by
        intro name maker reply t h
        obtain ⟨result, h, _⟩ := Outcome.map_eq_done.mp h
        exact (answer_steady depth).request hs h
      cases c with
      | get name | contains name | names | size =>
          cases h
          exact ⟨hs, .refl s⟩
      | remove name =>
          cases h
          exact hs.remove name
      | clear =>
          cases h
          exact ⟨⟨Sound.clear, hs.toNumbered.of_rest rfl, fun h => by simp at h⟩,
            by simp, by simp, by simp, fun _ h => h⟩
      | addMesh mesh => exact request h
      | getOrCreate name spec => exact request h
      | createExtruded name extrusion =>
          simp only [answer] at h
          split at h
          · cases h
            exact ⟨hs, .refl s⟩
          · exact request h
      | load path =>
          simp only [answer] at h
          split at h
          · cases h
            exact ⟨hs, .refl s⟩
          · exact request h
      | register format loader =>
          cases h
          exact ⟨hs.register format loader, ⟨Nat.le_refl _, fun _ => rfl, fun _ h => h, fun _ h => h⟩⟩

theorem answerAll_steady {depth : Nat} : ∀ {calls : List (Call α)} {s t : Store α} {replies},
    s.Steady → s.answerAll depth calls = .done replies t → t.Steady ∧ s.Evolves t
  | [], s, t, replies, hs, h => by
      cases h
      exact ⟨hs, .refl s⟩
  | c :: calls, s, t, replies, hs, h => by
      obtain ⟨reply, u, hu, h⟩ := Outcome.andThen_eq_done.mp h
      obtain ⟨rest, h, _⟩ := Outcome.map_eq_done.mp h
      obtain ⟨su, eu⟩ := answer_steady depth _ _ _ _ hs hu
      obtain ⟨st, et⟩ := answerAll_steady su h
      exact ⟨st, eu.trans et⟩

end Calls

/-! ### Where stores come from -/

/-- A steady store in which only meshes of a chain of loads are still being made. -/
structure Resting (chain : List String) (s : Store α) : Prop extends s.Steady where
  pending {name : String} {slot : Nat} :
    s.slotOf? name = some slot → s.meshIn slot = none → name ∈ chain

/-- A name beside the chain that has no mesh has no slot either. -/
theorem Resting.slotOf?_eq_none {chain : List String} {s : Store α} (hs : s.Resting chain)
    {name : String} (hname : name ∉ chain) (hg : s.get name = none) : s.slotOf? name = none := by
  obtain ⟨m, hm⟩ | ⟨slot, hslot, hm, -⟩ | hn := hs.cases name
  · simp [hg] at hm
  · exact absurd (hs.pending hslot hm) hname
  · exact hn

theorem Resting.mono {chain chain' : List String} {s : Store α} (hs : s.Resting chain)
    (h : chain ⊆ chain') : s.Resting chain' :=
  ⟨hs.toSteady, fun hn hm => h (hs.pending hn hm)⟩

theorem Resting.evolve {chain : List String} {s t : Store α} (hs : s.Resting chain)
    (ht : t.Steady) (ev : s.Evolves t) : t.Resting chain where
  toSteady := ht
  pending {name slot} hn hm := by
    have hheld : s.isHeld slot = true := (ev.isHeld_eq slot).symm.trans ((ht.held hn).mpr hm)
    have hold := ev.slotOf?_old (lt_of_isHeld hheld) hn
    exact hs.pending hold ((hs.held hold).mp hheld)

theorem steady_empty (triangulate : TriangulatorRuns α) : (empty triangulate).Steady where
  nodup := by simp [empty]
  lt h := by simp [empty, slotOf?] at h
  inj h := by simp [empty, slotOf?] at h
  id_lt h := by simp [empty] at h
  id_inj h := by simp [empty] at h
  held h := by simp [empty, slotOf?] at h

section Occurring

variable [Scalar α]

theorem Resting.begun {chain : List String} {s : Store α} (hs : s.Resting chain) {name : String}
    (maker : Maker α) (hn : s.slotOf? name = none) :
    (s.begun name maker).2.Resting (name :: chain) where
  toSteady := hs.toSteady.begun maker hn
  pending {m slot} hm hmesh := by
    rw [slotOf?_begun] at hm
    split at hm
    · next e => simp [e]
    · exact List.mem_cons_of_mem _ (hs.pending hm (by simpa [meshIn_begun] using hmesh))

/-- The loader run that a call sets going: its path, its script and the store on which it runs. -/
def loading? (s : Store α) : Call α → Option (String × Script α × Store α)
  | .load path =>
    match s.dispatch path with
    | .ok r =>
      let (t, slot) := s.slotFor path
      if (t.meshIn slot).isSome || t.isHeld slot then none
      else some (path, s.begun path (.file path r))
    | .error _ => none
  | _ => none

/-- On a steady store a loader runs for the names that have no slot yet. -/
theorem Steady.loading?_eq_some_iff {s : Store α} (hs : s.Steady) {c : Call α} {path : String}
    {begun : Script α × Store α} :
    s.loading? c = some (path, begun) ↔
      ∃ r, c = .load path ∧ s.dispatch path = .ok r ∧ s.slotOf? path = none ∧
        begun = s.begun path (.file path r) := by
  cases c with
  | load p =>
      simp only [loading?]
      cases hd : s.dispatch p with
      | error e => grind
      | ok r =>
          obtain ⟨m, hg⟩ | ⟨slot, hn, hm, hh⟩ | hn := hs.cases p
          · obtain ⟨slot, hn, hm⟩ := get_eq_some_iff.mp hg
            simp [slotFor_of_some hn, hm]
            grind
          · simp [slotFor_of_some hn, hm, hh]
            grind
          · have hslot : (s.slotFor p).2 = s.slots.size := by simp [slotFor_of_none hn]
            simp [hslot, meshIn_of_size_le, isHeld_of_size_le]
            grind
  | _ => simp [loading?]

/-- The states of a store between calls and inside of loads. -/
inductive Occurs : List String → Store α → Prop where
  | created {withBuiltins : Bool} {triangulate : TriangulatorRuns α} {s : Store α}
      (made : create withBuiltins triangulate = .ok s) : Occurs [] s
  | answered {chain : List String} {s t : Store α} {c : Call α} {depth : Nat} {reply : Reply α}
      (before : Occurs chain s) (done : s.answer depth c = .done reply t) : Occurs chain t
  | loading {chain : List String} {s t : Store α} {c : Call α} {path : String} {script : Script α}
      (before : Occurs chain s) (runs : s.loading? c = some (path, script, t)) :
      Occurs (path :: chain) t

theorem occurs_empty (triangulate : TriangulatorRuns α) : (empty triangulate).Occurs [] :=
  .created (show create false triangulate = .ok (empty triangulate) from rfl)

theorem occurs_register (triangulate : TriangulatorRuns α) (format : Format) (loader : Loader α) :
    ((empty triangulate).register format loader).Occurs [] :=
  (occurs_empty triangulate).answered
    (show (empty triangulate).answer 1 (.register format loader) = .done .done _ from rfl)

theorem steady_of_create {withBuiltins : Bool} {triangulate : TriangulatorRuns α} {s : Store α}
    (made : create withBuiltins triangulate = .ok s) :
    s.Steady ∧ (empty triangulate).Evolves s := by
  have hempty := steady_empty triangulate
  unfold create at made
  split at made
  · obtain ⟨meshes, -, rfl⟩ : ∃ meshes, builtins (triangulate 0) = .ok meshes ∧
        (empty triangulate).addMeshes meshes = s := by
      cases hb : builtins (triangulate 0) with
      | error e => simp [hb, Except.map] at made
      | ok meshes => exact ⟨meshes, rfl, by simpa [hb, Except.map] using made⟩
    unfold addMeshes
    cases ha : (empty triangulate).answerAll 1 (meshes.map .addMesh) with
    | stalled why => exact ⟨hempty, .refl _⟩
    | done replies t => exact answerAll_steady hempty ha
  · cases made
    exact ⟨hempty, .refl _⟩

/-- Between calls every name has its mesh; inside of loads only the paths being loaded are without. -/
theorem Occurs.resting {chain : List String} {s : Store α} (h : s.Occurs chain) :
    s.Resting chain := by
  induction h with
  | @created withBuiltins triangulate s made =>
      obtain ⟨hs, ev⟩ := steady_of_create made
      have hempty : (empty triangulate).Resting [] :=
        ⟨steady_empty triangulate, fun h => by simp [empty, slotOf?] at h⟩
      exact hempty.evolve hs ev
  | answered before done ih =>
      obtain ⟨ht, ev⟩ := answer_steady _ _ _ _ _ ih.toSteady done
      exact ih.evolve ht ev
  | @loading chain s t c path script before runs ih =>
      obtain ⟨r, -, -, hn, e⟩ := ih.toSteady.loading?_eq_some_iff.mp runs
      have := ih.begun (.file path r) hn
      rwa [← e] at this

/-- Between calls no writer lock is held. -/
theorem Occurs.isHeld {s : Store α} (h : s.Occurs []) (i : Nat) : s.isHeld i = false := by
  generalize hc : ([] : List String) = chain at h
  induction h with
  | created made =>
      rw [(steady_of_create made).2.isHeld_eq]
      simp [Store.isHeld, empty]
  | answered before done ih =>
      obtain ⟨-, ev⟩ := answer_steady _ _ _ _ _ before.resting.toSteady done
      rw [ev.isHeld_eq]
      exact ih hc
  | loading => cases hc

theorem Occurs.answerAll {chain : List String} {depth : Nat} : ∀ {calls : List (Call α)}
    {s t : Store α} {replies}, s.Occurs chain → s.answerAll depth calls = .done replies t →
    t.Occurs chain
  | [], s, t, replies, hs, h => by
      cases h
      exact hs
  | c :: calls, s, t, replies, hs, h => by
      obtain ⟨reply, u, hu, h⟩ := Outcome.andThen_eq_done.mp h
      obtain ⟨rest, h, -⟩ := Outcome.map_eq_done.mp h
      exact (hs.answered hu).answerAll h

end Occurring

end Store

end TriMesh
