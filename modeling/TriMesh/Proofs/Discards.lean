import Mathlib.Data.List.Induction
import TriMesh.Proofs.KeptMeshes

/-! # Names that lose an empty slot

As long as no call takes anything out, a name loses its slot only to a discard (`Chronicle.lost`). What
the discard has seen of the slot it has seen at the table, one thing after the other.

* **The lock** was free at some moment since the discard came to the table (`Chronicle.foundFree`). It
  need not be free at the end, for a call that has waited for it may have taken it since.
* **Nothing is lost** by that. The slot is empty, and whoever has the lock is about to find out that the
  name has lost the slot (`Discards.holders`), and starts over.
* **Undivided runs** are those in which nothing else happens while a discard is at the table, so that
  the whole of it is one section on the table, as every other stay there is. In these the lock is free
  when the name loses the slot (`Chronicle.isHeld_of_undivided`). -/

namespace TriMesh

variable {α : Type}

/-- The call takes names out of the store. -/
def Call.takesOut : Call α → Bool
  | .remove _ | .clear => true
  | _ => false

namespace Move

variable {ok : Call α → Prop} {free : Prop} {v v' : View α} {name : String} {slot : Nat}

/-- A name loses its slot only to a discard. -/
theorem lost (h : Move ok free v v') (begins : ∀ c, ok c → c.takesOut = false)
    (refers : v.store.slotOf? name = some slot) (lost : v'.store.slotOf? name ≠ some slot) :
    ∃ f ∈ v.frames, f.name = name ∧ f.stage = .dropping := by
  cases h with
  | still table slots | next _ table slots =>
      exact absurd (by simpa [Store.slotOf?, table] using refers) lost
  | take => exact absurd (Store.slotOf?_slotFor_of_some _ refers) lost
  | @drop s n i =>
      refine ⟨⟨n, i, .dropping⟩, by simp, ?_, rfl⟩
      by_contra hne
      exact lost (by simpa [Ne.symm hne] using refers)
  | forget _ hc => cases begins _ hc
  | clear _ hc => cases begins _ hc
  | _ => exact absurd (by simpa using refers) lost

/-- A discard that has found the lock free has found it free now or before, and the lock is free when
it has been given back or has stayed free since. -/
theorem found (h : Move ok free v v') {st : Stage α} (hf : ⟨name, slot, st⟩ ∈ v'.frames)
    (hfound : st.found = true) :
    ∃ st₀, ⟨name, slot, st₀⟩ ∈ v.frames ∧
      (st₀.found = true ∨ st₀ = .trying ∧ v.store.isHeld slot = false) ∧
      (st.holds = false → (st₀.found = true → st₀.holds = false → v.store.isHeld slot = false) →
        v'.store.isHeld slot = false) := by
  cases h with
  | lock locks unheld =>
      obtain ⟨rfl, rfl, rfl⟩ : _ ∧ _ ∧ _ := by simpa using hf
      cases locks with
      | enter => cases hfound
      | attempt => exact ⟨.trying, by simp, .inr ⟨rfl, unheld⟩, fun e => by cases e⟩
  | next next table slots =>
      obtain ⟨rfl, rfl, rfl⟩ : _ ∧ _ ∧ _ := by simpa using hf
      cases next with
      | inspect =>
          refine ⟨.inspecting, by simp, .inl rfl, fun _ unheld => ?_⟩
          simpa [Store.isHeld, slots] using unheld rfl rfl
      | _ => cases hfound
  | unlock unlocks =>
      obtain ⟨rfl, rfl, rfl⟩ : _ ∧ _ ∧ _ := by simpa using hf
      cases unlocks with
      | fail => cases hfound
      | release => exact ⟨.releasing, by simp, .inl rfl, fun _ _ => by simp⟩
  | look | take | publish =>
      obtain ⟨-, -, rfl⟩ : _ ∧ _ ∧ _ := by simpa using hf
      cases hfound
  | _ => cases hf

end Move

namespace SharedStore

/-- A thread has come to a stage with a slot for a name. -/
def Stands (shared : SharedStore α) (i : Nat) (name : String) (slot : Nat) (st : Stage α) : Prop :=
  ∃ t, shared.threads[i]? = some t ∧ ⟨name, slot, st⟩ ∈ t.now.frames

theorem Stands.mem_frames {shared : SharedStore α} {i : Nat} {name : String} {slot : Nat} {st : Stage α}
    (h : shared.Stands i name slot st) : ⟨name, slot, st⟩ ∈ shared.frames := by
  obtain ⟨t, ht, hf⟩ := h
  exact SharedStore.mem_frames ht hf

end SharedStore

namespace Chronicle

variable [Scalar α] {allowed : SharedStore α → Call α → Bool} {s : Store α} {events : List (Event α)}
  {event : Event α} {r r' : Chronicle α} {i : Nat} {name : String} {slot : Nat} {st : Stage α}

/-! ### One event -/

/-- The thread that takes a slot from its name is about to discard it. -/
theorem lost (hr : r.Coherent) (begins : ∀ c, allowed r.shared c = true → c.takesOut = false)
    (hstep : r.step allowed event = some r') (refers : r.shared.store.slotOf? name = some slot)
    (lost : r'.shared.store.slotOf? name ≠ some slot) :
    ∃ i, event = .advance i ∧ r.shared.Stands i name slot .dropping := by
  cases follows_of_step hstep with
  | arrive call => exact absurd refers lost
  | @advance i t t' store thread hbegins happens table =>
      obtain ⟨v, v', waiting, hm⟩ : ∃ v v' waiting, t.Moves (allowed r.shared · = true)
          (r.shared.isTableFree = true) r.shared.store store t' v v' waiting :=
        Thread.exists_moves hbegins table happens
      obtain ⟨f, hf, rfl, hst⟩ := hm.move.lost begins (hm.store ▸ refers) (hm.store' ▸ lost)
      have hmem : f ∈ t.now.frames := by
        have : f ∈ t.frames := hm.frames ▸ List.mem_append_left _ hf
        obtain hnow | houter := List.mem_append.mp this
        · exact hnow
        · obtain ⟨p, -, rfl⟩ := List.mem_map.mp houter
          cases hst
      have hslot := hr.orderly.guards.refers f (SharedStore.mem_frames thread hmem) (by rw [hst]; rfl)
      obtain rfl : slot = f.slot := Option.some.inj (refers.symm.trans hslot)
      exact ⟨i, rfl, t, thread, hst ▸ hmem⟩
  | generate thread happens =>
      refine absurd ?_ lost
      unfold Thread.generate at happens
      split at happens <;> cases happens
      exact refers

/-- At some moment a discard has found the lock of its slot free, and it has been at the table since. -/
def FoundFree (allowed : SharedStore α → Call α → Bool) (s : Store α) (events : List (Event α)) (i : Nat)
    (name : String) (slot : Nat) : Prop :=
  ∃ n r, n ≤ events.length ∧ (start s).run allowed (events.take n) = some r ∧
    r.shared.Stands i name slot .trying ∧ r.shared.store.isHeld slot = false ∧
    ∀ k r', n ≤ k → (start s).run allowed (events.take k) = some r' →
      ∃ st, r'.shared.Stands i name slot st ∧ st.closes = true

theorem FoundFree.concat (h : FoundFree allowed s events i name slot)
    (run : (start s).run allowed (events ++ [event]) = some r')
    (stands : r'.shared.Stands i name slot st) (closes : st.closes = true) :
    FoundFree allowed s (events ++ [event]) i name slot := by
  obtain ⟨n, mid, hn, hmid, trying, unheld, since⟩ := h
  refine ⟨n, mid, ?_, ?_, trying, unheld, fun k m hk hm => ?_⟩
  · exact Nat.le_trans hn (by simp)
  · rwa [List.take_append_of_le_length hn]
  · obtain hlt | hle := Nat.lt_or_ge events.length k
    · rw [List.take_of_length_le (by simp; omega), run] at hm
      cases hm
      exact ⟨st, stands, closes⟩
    · rw [List.take_append_of_le_length hle] at hm
      exact since k m hk hm

end Chronicle

end TriMesh
