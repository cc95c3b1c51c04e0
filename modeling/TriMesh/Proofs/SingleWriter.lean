import Mathlib.Data.List.Nodup
import TriMesh.Proofs.Discards

/-! # One writer for each name

Threads may ask for one mesh at the same time, and whoever makes it may fail. If nothing is taken out,
there is still one mesh for each name at most.

* **Writing.** A generator or loader runs while its call holds the lock of the slot that the name
  refers to, so that there is one for the name at a time (`SharedStore.Orderly.nodup_making`).
* **Once.** A mesh that has been made is on its way to the store or in it. The next to hold the lock
  finds it, and makes none (`Once.notMem`).
* **Prompt.** A lookup goes to the slot that the name refers to, and that slot does not change any
  more once it has a mesh (`Prompt.step`).
* **Failing.** A call that has failed gives back the lock first and discards the slot later. If by then
  another call holds the lock or has made the mesh, the slot is left alone (`Chronicle.Discards`).

All this holds with every section of a discard as a step of its own, so that others may take the lock
between the moment at which the discard sees it free and the moment at which it takes the slot from its
name. With the discard's whole stay at the table as one step, like any other section on the table, the
lock is free at the latter as well. -/

namespace TriMesh

variable {α : Type}

/-! ### Lookups -/

section Lookups

variable [Scalar α] {s s' : Store α} {name : String}

/-- A lookup of a mesh has found the slot of the name. -/
theorem Activity.refers_of_reading {a : Activity α} {slot : Nat}
    (happens : a.step s = some (s', .reading (.get name) slot)) :
    s.slotOf? name = some slot ∧ s' = s := by
  have hlookup : ∀ {c n}, Activity.lookup s c n = .reading (.get name) slot →
      c = .get name ∧ s.slotOf? n = some slot := by
    intro c n h
    unfold lookup at h
    split at h
    · next i hn =>
        cases h
        exact ⟨rfl, hn⟩
    · cases c <;> cases h
  cases a with
  | ready call =>
      have happens : start s call = (s', .reading (.get name) slot) := Option.some.inj happens
      cases call with
      | get n =>
          obtain ⟨e, hn⟩ := hlookup (congrArg Prod.snd happens)
          cases e
          exact ⟨hn, (congrArg Prod.fst happens).symm⟩
      | contains n | createExtruded n e => cases (hlookup (congrArg Prod.snd happens)).1
      | remove n | load path =>
          simp only [start] at happens
          split at happens <;> cases happens
      | _ => cases happens
  | reading call i =>
      have happens : afterLookup call (s.meshIn i) = .reading (.get name) slot :=
        congrArg Prod.snd (Option.some.inj happens)
      cases call with
      | createExtruded n e => cases hm : s.meshIn i <;> rw [hm] at happens <;> cases happens
      | _ => cases happens
  | listing call rest found =>
      cases rest with
      | nil =>
          have happens : afterListing call found = .reading (.get name) slot :=
            congrArg Prod.snd (Option.some.inj happens)
          cases call <;> cases happens
      | cons e rest => cases happens
  | emptying i => cases happens
  | requesting n maker p =>
      exact absurd (Activity.serves_advance (c := .load n) rfl happens) (by simp [Serves])
  | answered reply => cases happens

theorem Thread.refers_of_reading {t t' : Thread α} {slot : Nat}
    (happens : t.step s = some (s', t')) (reading : t'.now = .reading (.get name) slot) :
    s'.slotOf? name = some slot := by
  obtain ⟨p, r, e⟩ | ⟨request, e⟩ | hstep := Thread.step_cases happens
  · cases reading.symm.trans e
  · cases reading.symm.trans e
  · obtain ⟨refers, rfl⟩ := Activity.refers_of_reading (reading ▸ hstep)
    exact refers

theorem Activity.reply_of_get {a : Activity α} {reply : Reply α} (h : a.Serves (.get name))
    (happens : a.step s = some (s', .answered reply)) :
    s.slotOf? name = none ∧ reply = .stored none ∨
      ∃ slot, a = .reading (.get name) slot ∧ reply = .stored (s.meshIn slot) := by
  cases a with
  | ready call =>
      obtain rfl := h
      have happens : lookup s (.get name) name = .answered reply :=
        congrArg Prod.snd (Option.some.inj happens)
      unfold lookup at happens
      split at happens
      · cases happens
      · next hn =>
          cases happens
          exact .inl ⟨hn, rfl⟩
  | reading call slot =>
      obtain rfl := h
      cases happens
      exact .inr ⟨slot, rfl, rfl⟩
  | listing call rest found => simp [Serves] at h
  | emptying slot => simp [Serves] at h
  | requesting n maker p => simp [Serves, Call.wanted?] at h
  | answered r => cases happens

end Lookups

namespace Chronicle

/-- A mesh has been made for the name at most once, and is on its way to the store or there. -/
structure Once (name : String) (r : Chronicle α) : Prop where
  count : r.made.count name ≤ 1
  stored : name ∈ r.made → (r.shared.store.get name).isSome = true ∨
    ∃ f ∈ r.shared.frames, f.name = name ∧ f.stage = .publishing

/-- A second mesh is not made: its maker has seen the slot empty, and holds the lock of it. -/
theorem Once.notMem {name : String} {r : Chronicle α} (h : r.Once name) (hr : r.Coherent)
    (kept : r.Kept name) {slot : Nat}
    (making : (⟨name, slot, .making⟩ : Frame α) ∈ r.shared.frames) : name ∉ r.made := by
  intro hmade
  have refers : r.shared.store.slotOf? name = some slot := kept.faithful _ making rfl (.inl rfl)
  obtain hget | ⟨g, hg, hname, hst⟩ := h.stored hmade
  · rw [Store.get_of_slotOf? refers, (hr.orderly.fits _ making).vacant rfl] at hget
    cases hget
  · have hrefers := kept.faithful g hg hname (.inl (by rw [hst]; rfl))
    have hslot : g.slot = slot := Option.some.inj (hrefers.symm.trans refers)
    obtain rfl := hr.orderly.eq_of_holds making hg rfl (by rw [hst]; rfl) hslot
    cases hst

/-- A lookup that begins after a mesh has been answered for its name finds that mesh. -/
structure Prompt (name : String) (r : Chronicle α) : Prop where
  reading {i slot : Nat} {t : Thread α} {a b : Asked α} {rest : List (Asked α)} {m : Handle α} :
    r.shared.threads[i]? = some t → r.asked i = b :: rest → t.now = .reading (.get name) slot →
    (a, .made (.ok m)) ∈ r.answers.take b.since → a.call.wanted? = some name →
    r.shared.store.slotOf? name = some slot
  answered {a b : Asked α} {m : Handle α} {reply : Reply α} :
    (b, reply) ∈ r.answers → b.call = .get name → (a, .made (.ok m)) ∈ r.answers.take b.since →
    a.call.wanted? = some name → reply = .stored (some m)

variable [Scalar α] {allowed : SharedStore α → Call α → Bool} {r r' : Chronicle α} {event : Event α}
  {name : String}

theorem Once.step (h : r.Once name) (hr : r.Coherent) (kept : r.Kept name)
    (hstep : r.step allowed event = some r') (spares : r.shared.Spares event name) :
    r'.Once name := by
  have happens := (happens_of_step hstep).1
  have hstored := fun hmade => hr.orderly.stored happens spares kept.faithful (h.stored hmade)
  cases follows_of_step hstep with
  | @advance i t t' store thread begins moves =>
      by_cases hmakes : name ∈ t.now.makes
      · obtain ⟨maker, slot, mesh, hnow⟩ := Activity.eq_making_of_makes hmakes
        have hnot := h.notMem hr kept (SharedStore.mem_frames (f := ⟨name, slot, .making⟩) thread
          (by simp [hnow, Activity.frames, Progress.frames]))
        have hnow' : t'.now = .requesting name maker (.publishing slot mesh) := by
          simp only [Thread.step, hnow, Activity.step, Activity.advance, Option.map_some] at moves
          cases moves
          rfl
        refine ⟨?_, fun _ => .inr ⟨⟨name, slot, .publishing⟩, ?_, rfl, rfl⟩⟩
        · simp [hnow, Activity.makes, List.count_eq_zero_of_not_mem hnot]
        · refine SharedStore.mem_frames (i := i) (t := t') ?_
            (by simp [hnow', Activity.frames, Progress.frames])
          simp [(List.getElem?_eq_some_iff.mp thread).1]
      · refine ⟨?_, fun hmade => hstored ?_⟩
        · simpa [List.count_append, List.count_eq_zero_of_not_mem hmakes] using h.count
        · exact (List.mem_append.mp hmade).resolve_right hmakes
  | _ => exact ⟨h.count, hstored⟩

theorem Prompt.step (h : r.Prompt name) (hr : r.Coherent) (kept : r.Kept name)
    (hstep : r.step allowed event = some r') (spares : r.shared.Spares event name) :
    r'.Prompt name := by
  have happens := (happens_of_step hstep).1
  cases follows_of_step hstep with
  | arrive call =>
      refine ⟨fun {j slot u a b rest m} hu hasked hnow hanswer wanted => ?_, h.answered⟩
      obtain ⟨rfl, rfl⟩ | ⟨hne, hu⟩ := getElem?_concat_cases hu
      · cases hnow
      · have hasked : r.asked j = b :: rest := by simpa [hne] using hasked
        exact h.reading hu hasked hnow hanswer wanted
  | @advance i t t' store thread begins moves =>
      have htake : ∀ {j b}, b ∈ r.asked j →
          (r.answers ++ t'.now.answers (r.asked i)).take b.since = r.answers.take b.since :=
        fun hb => List.take_append_of_le_length (hr.asked_since _ _ hb)
      refine ⟨fun {j slot u a b rest m} hu hasked hnow hanswer wanted => ?_,
        fun {a b m reply} hreply hcall hanswer wanted => ?_⟩
      · obtain ⟨rfl, rfl⟩ | ⟨hne, hu⟩ := getElem?_set_cases hu
        · exact Thread.refers_of_reading moves hnow
        · have hasked : r.asked j = b :: rest := by simpa [hne] using hasked
          rw [htake (j := j) (by simp [hasked])] at hanswer
          exact kept.refers_kept hr happens spares hanswer wanted
            (h.reading hu hasked hnow hanswer wanted)
      · obtain hreply | hreply := List.mem_append.mp hreply
        · rw [List.take_append_of_le_length (hr.answers_since _ hreply)] at hanswer
          exact h.answered hreply hcall hanswer wanted
        · obtain ⟨hnow, hhead⟩ := Activity.mem_answers hreply
          obtain ⟨c, rest, hasked, hserves, -⟩ := hr.serves thread
          obtain rfl : c = b := by simpa [hasked] using hhead
          rw [htake (j := i) (by simp [hasked])] at hanswer
          have hget := kept.answered (List.mem_of_mem_take hanswer) wanted
          obtain ⟨hn, -⟩ | ⟨slot, hreading, rfl⟩ := Activity.reply_of_get (hcall ▸ hserves)
            (Thread.step_of_answered moves hnow)
          · rw [Store.get_of_slotOf?_none hn] at hget
            cases hget
          · have refers := h.reading thread hasked hreading hanswer wanted
            rw [← hget, Store.get_of_slotOf? refers]
  | generate thread moves =>
      unfold Thread.generate at moves
      split at moves <;> cases moves
      refine ⟨fun {j slot u a b rest m} hu hasked hnow hanswer wanted => ?_, h.answered⟩
      obtain ⟨rfl, rfl⟩ | ⟨hne, hu⟩ := getElem?_set_cases hu
      · cases hnow
      · exact h.reading hu hasked hnow hanswer wanted

end Chronicle

/-! ### Calls that take nothing out -/

namespace SharedStore

/-- The names whose meshes are being made, by generators or by loaders. -/
def making (shared : SharedStore α) : List String :=
  shared.frames.filterMap fun f => match f.stage with
    | .making => some f.name
    | _ => none

end SharedStore

namespace Chronicle

variable [Scalar α]

end Chronicle

end TriMesh
