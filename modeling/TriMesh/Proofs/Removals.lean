import Mathlib
import TriMesh.Proofs.KeptMeshes

/-! # Removals beside requests

A removal takes a name out in one section and the mesh out of its slot in another. If the slot is empty
by then, the removal answers that there was nothing to remove.

* **On its way.** Taken out while a mesh is on its way into the slot, a name loses the mesh: the removal
  finds nothing, and the request answers a mesh that is not in the store.
* **At other times** a removal that finds nothing takes nothing. For the mesh that a removal cuts off
  stays in its slot until the removal answers it (`Doomed`). -/

namespace TriMesh

variable {α : Type}

/-- The call takes all names out. -/
def Call.isClear : Call α → Bool
  | .clear => true
  | _ => false

/-- The store is not cleared, and the name is not taken out while a mesh is on its way into its slot. -/
def SharedStore.admits (name : String) (shared : SharedStore α) : Call α → Bool
  | .clear => false
  | .remove n => n != name || shared.frames.all fun f => f.name != name || !f.stage.fills
  | _ => true

theorem SharedStore.mem_emptied {shared : SharedStore α} {i slot : Nat} {t : Thread α}
    (ht : shared.threads[i]? = some t) (hnow : t.now = .emptying slot) : slot ∈ shared.emptied :=
  List.mem_flatMap.mpr ⟨t, List.mem_of_getElem? ht, by simp [hnow, Activity.emptied]⟩

/-- A slot that is about to be emptied keeps its mesh until then. -/
theorem Move.full_of_emptied {ok : Call α → Prop} {free : Prop} {v v' : View α}
    {F : List (Frame α)} {E : List Nat} (h : Move ok free v v')
    (hosts : v.store.Hosts (v.frames ++ F) (v.emptied ++ E)) {slot : Nat} {m : Handle α}
    (before : slot ∈ v.emptied ++ E) (after : slot ∈ v'.emptied ++ E)
    (full : v.store.meshIn slot = some m) : v'.store.meshIn slot = some m := by
  cases h with
  | still table slots | next _ table slots => simpa [Store.meshIn, slots] using full
  | @publish s n i mesh =>
      have hfit : s.Fits ⟨n, i, .publishing⟩ := hosts.fits _ (by simp)
      have hne : slot ≠ i := by
        rintro rfl
        rw [hfit.vacant rfl] at full
        cases full
      simpa [Store.meshIn_publish _ _ _ hfit.lt, hne] using full
  | @empty s i =>
      have hne : slot ≠ i := by
        rintro rfl
        exact (List.nodup_cons.mp hosts.nodup_emptied).1 after
      simpa [hne] using full
  | _ => simpa using full

namespace Chronicle

/-- A removal of the name has found a mesh, or is about to. -/
def Doomed (name : String) (r : Chronicle α) : Prop :=
  (∃ a m, (a, .stored (some m)) ∈ r.answers ∧ a.call = .remove name) ∨
    ∃ i t slot b rest m, r.shared.threads[i]? = some t ∧ t.now = .emptying slot ∧
      r.asked i = b :: rest ∧ b.call = .remove name ∧ r.shared.store.meshIn slot = some m

variable [Scalar α] {allowed : SharedStore α → Call α → Bool} {r r' : Chronicle α} {event : Event α}
  {name : String}

theorem Doomed.step (h : r.Doomed name) (hr : r.Coherent) (hstep : r.step allowed event = some r') :
    r'.Doomed name := by
  obtain ⟨a, m, hanswer, hcall⟩ | ⟨i, t, slot, b, rest, m, ht, hnow, hasked, hcall, full⟩ := h
  · refine .inl ⟨a, m, ?_, hcall⟩
    cases follows_of_step hstep with
    | advance => exact List.mem_append_left _ hanswer
    | _ => exact hanswer
  · have happens := (happens_of_step hstep).1
    -- as long as the removal waits, the mesh stays
    have hwaits : r'.shared.threads[i]? = some t → r'.asked i = b :: rest → r'.Doomed name := by
      intro ht' hasked'
      obtain ⟨v, v', F, E, move, hv, hv'⟩ :=
        SharedStore.move_of_step (fun _ hc => hc) happens
      refine .inr ⟨i, t, slot, b, rest, m, ht', hnow, hasked', hcall, hv'.store ▸ ?_⟩
      exact move.full_of_emptied (hr.orderly.within hv)
        (hv.emptied.mem_iff.mp (SharedStore.mem_emptied ht hnow))
        (hv'.emptied.mem_iff.mp (SharedStore.mem_emptied ht' hnow)) (hv.store ▸ full)
    have hlt := (List.getElem?_eq_some_iff.mp ht).1
    cases follows_of_step hstep with
    | arrive call =>
        refine hwaits ?_ ?_
        · rw [List.getElem?_append_left hlt]
          exact ht
        · simpa [Nat.ne_of_lt hlt] using hasked
    | @advance j u u' store thread begins moves =>
        obtain rfl | hne := eq_or_ne j i
        · obtain rfl : u = t := Option.some.inj (thread.symm.trans ht)
          have hnow' : u'.now = .answered (.stored (some m)) := by
            simp only [Thread.step, hnow, Activity.step, Store.takeOut, full, Option.map_some] at moves
            cases moves
            rfl
          refine .inl ⟨b, m, List.mem_append_right _ ?_, hcall⟩
          simp [hnow', hasked, Activity.answers]
        · refine hwaits ?_ ?_
          · rw [List.getElem?_set_ne hne]
            exact ht
          · simpa [hne.symm] using hasked
    | @generate j u u' store result thread moves =>
        obtain rfl | hne := eq_or_ne j i
        · obtain rfl : u = t := Option.some.inj (thread.symm.trans ht)
          simp [Thread.generate, hnow] at moves
        · refine hwaits ?_ hasked
          rw [List.getElem?_set_ne hne]
          exact ht

/-- A removal that finds a mesh will answer it. -/
theorem doomed_of_begins (hr : r.Coherent) (hstep : r.step allowed event = some r')
    (begins : r.shared.begins? event = some (.remove name)) {m : Handle α}
    (hget : r.shared.store.get name = some m) : r'.Doomed name := by
  obtain ⟨slot, refers, full⟩ := Store.get_eq_some_iff.mp hget
  cases follows_of_step hstep with
  | @advance i t t' store thread _ moves =>
      have hnow : t.now = .ready (.remove name) := by
        simp only [SharedStore.begins?, thread, Option.bind_some] at begins
        split at begins
        · next c hc => rw [hc, Option.some.inj begins]
        · cases begins
      obtain ⟨b, rest, hasked, hserves, -⟩ := hr.serves thread
      have hcall : b.call = .remove name := by simpa [hnow, Activity.Serves, eq_comm] using hserves
      simp only [Thread.step, hnow, Activity.step, Activity.start, refers, Option.map_some] at moves
      cases moves
      refine .inr ⟨i, ⟨.emptying slot, t.outer⟩, slot, b, rest, m, ?_, rfl, ?_, hcall,
        by simpa using full⟩
      · simp [(List.getElem?_eq_some_iff.mp thread).1]
      · simpa [hnow, Activity.asks] using hasked
  | _ => cases begins

theorem Kept.step_or_doomed (h : r.Kept name) (hr : r.Coherent)
    (hstep : r.step (SharedStore.admits name) event = some r') : r'.Kept name ∨ r'.Doomed name := by
  have hbegins := (happens_of_step hstep).2
  by_cases hdoomed : r.shared.begins? event = some (.remove name) ∧ (r.shared.store.get name).isSome
  · obtain ⟨begins, hsome⟩ := hdoomed
    obtain ⟨m, hget⟩ := Option.isSome_iff_exists.mp hsome
    exact .inr (doomed_of_begins hr hstep begins hget)
  · refine .inl (h.step hr hstep ⟨fun hc => ?_, fun hc => ⟨?_, fun f hf hname => ?_⟩⟩)
    · cases hbegins _ hc
    · simpa [hc] using hdoomed
    · have := hbegins _ hc
      simp only [SharedStore.admits, bne_self_eq_false, Bool.false_or, List.all_eq_true] at this
      simpa [hname] using this f hf

/-- **A removal that finds nothing takes nothing**, unless a mesh is on its way into the slot. -/
theorem get_of_answered {s : Store α} (rest : s.Occurs []) {events : List (Event α)}
    (run : (start s).run (SharedStore.admits name) events = some r) (idle : r.shared.isIdle = true)
    (removed : ∀ a reply, (a, reply) ∈ r.answers → a.call = .remove name → reply = .stored none)
    {a : Asked α} {m : Handle α} (answered : (a, .made (.ok m)) ∈ r.answers)
    (wanted : a.call.wanted? = some name) : r.shared.store.get name = some m := by
  have hinv : r.Coherent ∧ (r.Kept name ∨ r.Doomed name) := by
    refine run_induction (motive := fun r => r.Coherent ∧ (r.Kept name ∨ r.Doomed name))
      (fun {r r' event} h hstep => ⟨h.1.step hstep, ?_⟩) ⟨coherent_start rest, .inl (kept_start name s)⟩
      run
    exact h.2.elim (fun kept => kept.step_or_doomed h.1 hstep) fun doomed =>
      .inr (doomed.step h.1 hstep)
  obtain ⟨-, kept | ⟨b, m', hanswer, hcall⟩ | ⟨i, t, slot, b, rest, m', ht, hnow, -⟩⟩ := hinv
  · exact kept.answered answered wanted
  · cases removed _ _ hanswer hcall
  · have hempty := SharedStore.mem_emptied ht hnow
    rw [(SharedStore.frames_of_isIdle idle).2] at hempty
    cases hempty

/-- The name is taken out before the request has seen that it still refers to the slot. -/
theorem get_of_answered_early :
    let events := [.arrive (.addMesh (.empty "a")), .arrive (.remove "a")] ++
      [0, 0, 0, 0, 0, 1, 1, 0, 0, 0, 0, 0, 0, 0, 0, 0, 0, 0].map .advance
    let start := start (α := Float) (Store.empty fun _ _ => .error .triangulationUnavailable)
    ∃ r, start.run (SharedStore.admits "a") events = some r ∧ r.shared.isIdle = true ∧
      r.answers = [(⟨.remove "a", 0⟩, .stored none),
        (⟨.addMesh (.empty "a"), 0⟩, .made (.ok ⟨0, .empty "a"⟩))] ∧
      r.shared.store.get "a" = some ⟨0, .empty "a"⟩ := by
  intro events start
  have hrun : (start.run (SharedStore.admits "a") events).map
      (fun r => (r.shared.isIdle, r.answers)) =
      some (true, [(⟨.remove "a", 0⟩, .stored none),
        (⟨.addMesh (.empty "a"), 0⟩, .made (.ok ⟨0, .empty "a"⟩))]) := by cbv
  obtain ⟨r, run, hr⟩ := Option.map_eq_some_iff.mp hrun
  obtain ⟨idle, answers⟩ := Prod.mk.inj hr
  refine ⟨r, run, idle, answers, ?_⟩
  refine get_of_answered (a := ⟨.addMesh (.empty "a"), 0⟩) (Store.occurs_empty _) run
    idle ?_ (by simp [answers]) rfl
  intro a reply h hcall
  simp only [answers, List.mem_cons, Prod.mk.injEq, List.not_mem_nil, or_false] at h
  obtain ⟨rfl, rfl⟩ | ⟨rfl, rfl⟩ := h
  · rfl
  · cases hcall

/-- A loader that removes the path that it is loading. -/
def selfish : Loader Float := fun _ path => .call (.remove path) fun _ => .finish (.ok (.empty path))

/-- A removal that finds nothing may still cost a mesh that is being made. -/
theorem removal_loses_mesh : ¬ ∀ (s : Store Float) (name : String) (events : List (Event Float))
    (r : Chronicle Float), s.Occurs [] → (start s).run (fun _ c => !c.isClear) events = some r →
    r.shared.isIdle = true →
    (∀ a reply, (a, reply) ∈ r.answers → a.call = .remove name → reply = .stored none) →
    ∀ a m, (a, .made (.ok m)) ∈ r.answers → a.call.wanted? = some name →
      r.shared.store.get name = some m := by
  intro claim
  let s := (Store.empty fun _ _ => .error .triangulationUnavailable).register .triangleSoup selfish
  have rest : s.Occurs [] := Store.occurs_register _ _ _
  have hrun : ((start s).run (fun _ c => !c.isClear)
      (.arrive (.load "a.stl") :: List.replicate 14 (.advance 0))).map
      (fun r => (r.shared.isIdle, r.answers, r.shared.store.get "a.stl")) =
      some (true, [(⟨.remove "a.stl", 0⟩, .stored none),
        (⟨.load "a.stl", 0⟩, .made (.ok ⟨0, .empty "a.stl"⟩))], none) := by cbv
  obtain ⟨r, run, hr⟩ := Option.map_eq_some_iff.mp hrun
  obtain ⟨idle, hr⟩ := Prod.mk.inj hr
  obtain ⟨answers, hget⟩ := Prod.mk.inj hr
  have hkept := claim s "a.stl" _ r rest run idle ?_ ⟨.load "a.stl", 0⟩ ⟨0, .empty "a.stl"⟩
    (by simp [answers]) rfl
  · rw [hget] at hkept
    cases hkept
  · intro a reply h hcall
    simp only [answers, List.mem_cons, Prod.mk.injEq, List.not_mem_nil, or_false] at h
    obtain ⟨rfl, rfl⟩ | ⟨rfl, rfl⟩ := h
    · rfl
    · cases hcall

end Chronicle

end TriMesh
