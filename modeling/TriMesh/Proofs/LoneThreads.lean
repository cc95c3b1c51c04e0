import Mathlib.Data.List.Sort
import Mathlib.Logic.Relation
import TriMesh.Proofs.RequestFrames

/-! # Threads on their own

Calls have been described twice, as a whole (`Store.answer`) and section by section (`Thread.step`). A
thread with no others beside it comes to the answer of the whole call and to the same store.

* **What nobody disturbs.** The request as a whole leaves out what a request looks at again because
  others may have come in between: whether the slot has got a mesh by the time it has the lock, whether
  the name still refers to the slot, and whether the lock is free when the slot is discarded. On its own,
  a thread sees what it has seen before (`Thread.request_isReached`).
* **Nested calls.** A loader run waits in `Thread.outer` while the thread makes its call, whose answer it
  is handed. The induction is on the depth of calls and, for a loader, on its script.
* **Stalls.** Where the whole call waits for a lock held further out, so does the thread, which cannot
  take another step (`SharedStore.stalls_alone`). -/

namespace TriMesh

variable {α : Type}

namespace Store

/-- A free lock taken for a moment leaves no trace. -/
theorem unlock_lock {s : Store α} {slot : Nat} (free : s.isHeld slot = false) :
    (s.lock slot).unlock slot = s := by
  have hslots : ((s.lock slot).unlock slot).slots = s.slots := by
    refine Array.ext (by simp) fun i h h' => ?_
    obtain rfl | hne := eq_or_ne slot i
    · have hfree : s.slots[slot].held = false := by simpa [isHeld, h'] using free
      simp [unlock, lock, modifySlot, Array.getElem_modify, ← hfree]
    · simp [unlock, lock, modifySlot, Array.getElem_modify, hne]
  calc (s.lock slot).unlock slot = { s with slots := ((s.lock slot).unlock slot).slots } := rfl
    _ = s := by rw [hslots]

end Store

/-- Names are listed alike in whatever order they have been found. -/
theorem mergeSort_reverse (names : List String) :
    names.reverse.mergeSort (fun a b => a ≤ b) = names.mergeSort (fun a b => a ≤ b) := by
  refine List.Perm.eq_of_pairwise' (List.pairwise_mergeSort' _ _) (List.pairwise_mergeSort' _ _) ?_
  exact ((List.mergeSort_perm _ _).trans names.reverse_perm).trans (List.mergeSort_perm _ _).symm

/-! ### Sections in a row -/

section Sections

variable [Scalar α] {β γ : Type}

namespace Thread

/-- Sections of a thread in a row. -/
abbrev Leads (p q : Store α × Thread α) : Prop :=
  Relation.ReflTransGen (fun p q => p.2.step p.1 = some q) p q

theorem step_of_activity {s s' : Store α} {a a' : Activity α} (h : a.step s = some (s', a'))
    (outer : List (Pending α)) : Thread.step s ⟨a, outer⟩ = some (s', ⟨a', outer⟩) := by
  cases a with
  | answered reply => cases h
  | requesting name maker p =>
      cases p with
      | making slot script =>
          cases script with
          | finish result => simp [Thread.step, h]
          | call request next => cases h
      | _ => simp [Thread.step, h]
  | _ => simp [Thread.step, h]

theorem head_of_advance {s s' : Store α} {name : String} {maker : Maker α} {p : Progress α}
    {a : Activity α} {outer : List (Pending α)} {q : Store α × Thread α}
    (happens : Activity.advance s name maker p = some (s', a)) (leads : Leads (s', ⟨a, outer⟩) q) :
    Leads (s, ⟨.requesting name maker p, outer⟩) q :=
  .head (step_of_activity (a := .requesting name maker p) happens outer) leads

end Thread

namespace Outcome

/-- A thread comes to the value of an outcome, or to where it waits for a lock. -/
def IsReached (o : Outcome α β) (p : Store α × Thread α) (after : β → Thread α) : Prop :=
  match o with
  | .done value s => Thread.Leads p (s, after value)
  | .stalled .deadlock => ∃ q, Thread.Leads p q ∧ q.2.step q.1 = none ∧ q.2.reply? = none
  | .stalled .tooDeep => True

variable {o : Outcome α β} {p q : Store α × Thread α} {after : β → Thread α}

theorem IsReached.of_leads (h : o.IsReached q after) (leads : Thread.Leads p q) :
    o.IsReached p after := by
  cases o with
  | done value s => exact leads.trans h
  | stalled why =>
      cases why with
      | deadlock =>
          obtain ⟨stuck, hstuck, hwaits⟩ := h
          exact ⟨stuck, leads.trans hstuck, hwaits⟩
      | tooDeep => trivial

theorem IsReached.andThen {f : β → Store α → Outcome α γ} {after' : γ → Thread α}
    (h : o.IsReached p after) (next : ∀ value s, (f value s).IsReached (s, after value) after') :
    (o.andThen f).IsReached p after' := by
  cases o with
  | done value s => exact (next value s).of_leads h
  | stalled why => cases why <;> exact h

theorem IsReached.map {f : β → γ} {after' : γ → Thread α}
    (h : o.IsReached p fun value => after' (f value)) : (o.map f).IsReached p after' :=
  h.andThen fun _ _ => .refl

end Outcome

end Sections

namespace Thread

variable [Scalar α] {s : Store α} {name : String} {maker : Maker α} {slot : Nat}
  {outer : List (Pending α)}

/-! ### Lookups and lists -/

theorem leads_of_lookup (call : Call α) (name : String) :
    Leads (s, ⟨Activity.lookup s call name, outer⟩)
      (s, ⟨Activity.afterLookup call (s.get name), outer⟩) := by
  unfold Activity.lookup
  cases hn : s.slotOf? name with
  | some slot =>
      rw [Store.get_of_slotOf? hn]
      exact .single (step_of_activity rfl outer)
  | none =>
      rw [Store.get_of_slotOf?_none hn]

theorem leads_of_listing (call : Call α) : ∀ (rest : List (String × Nat)) (found : List String),
    Leads (s, ⟨.listing call rest found, outer⟩) (s, ⟨Activity.afterListing call
      (((rest.filter fun e => (s.meshIn e.2).isSome).map (·.1)).reverse ++ found), outer⟩)
  | [], found => .single (step_of_activity rfl outer)
  | (name, slot) :: rest, found => by
      refine .head (step_of_activity rfl outer) ?_
      cases hm : (s.meshIn slot).isSome with
      | true => simpa [hm] using leads_of_listing call rest (name :: found)
      | false => simpa [hm] using leads_of_listing call rest found

theorem leads_of_names :
    Leads (s, ⟨.ready .names, outer⟩) (s, ⟨.answered (.listed s.names), outer⟩) := by
  have lists : Leads (s, ⟨.listing .names s.table [], outer⟩) _ := leads_of_listing .names s.table []
  rw [List.append_nil, Activity.afterListing, mergeSort_reverse] at lists
  · exact .head (step_of_activity rfl outer) lists
  · exact fun e => by cases e

theorem leads_of_size :
    Leads (s, ⟨.ready .size, outer⟩) (s, ⟨.answered (.count s.size), outer⟩) := by
  have lists : Leads (s, ⟨.listing .size s.table [], outer⟩) _ := leads_of_listing .size s.table []
  rw [List.append_nil, Activity.afterListing, List.length_reverse] at lists
  rw [Store.size, Store.names, List.length_mergeSort]
  exact .head (step_of_activity rfl outer) lists

theorem leads_of_remove (name : String) : Leads (s, ⟨.ready (.remove name), outer⟩)
    ((s.remove name).2, ⟨.answered (.stored (s.remove name).1), outer⟩) := by
  unfold Store.remove
  cases hn : s.slotOf? name with
  | none =>
      have misses : Activity.start s (.remove name) = (s, .answered (.stored none)) := by
        simp [Activity.start, hn]
      exact .single (step_of_activity (a := .ready _) (congrArg some misses) outer)
  | some slot =>
      have forgets : Activity.start s (.remove name) = (s.forget name, .emptying slot) := by
        simp [Activity.start, hn]
      refine .head (step_of_activity (a := .ready _) (congrArg some forgets) outer) ?_
      exact .single (step_of_activity rfl outer)

/-! ### Requests -/

/-- A discard, one thing after the other. -/
theorem leads_of_discard (why : MeshError) :
    Leads (s, ⟨.requesting name maker (.discarding slot why), outer⟩)
      (s.discardEmpty name slot, ⟨.answered (.made (.error why)), outer⟩) := by
  let failed : Activity α := .answered (.made (.error why))
  let stage (p : Nat → MeshError → Progress α) : Activity α := .requesting name maker (p slot why)
  by_cases refers : s.isRegistered name slot = true
  · have comes : Activity.advance s name maker (.discarding slot why) = some (s, stage .trying) := by
      simp [Activity.advance, refers, stage]
    refine head_of_advance comes ?_
    cases hh : s.isHeld slot with
    | true =>
        have yields : Activity.advance s name maker (.trying slot why) = some (s, failed) := by
          simp [Activity.advance, hh, failed]
        have kept : s.discardEmpty name slot = s := by simp [Store.discardEmpty, hh]
        rw [kept]
        exact head_of_advance yields .refl
    | false =>
        have tries : Activity.advance s name maker (.trying slot why) =
            some (s.lock slot, stage .releasing) := by simp [Activity.advance, hh, stage]
        have releases : Activity.advance (s.lock slot) name maker (.releasing slot why) =
            some (s, stage .inspecting) := by simp [Activity.advance, Store.unlock_lock hh, stage]
        refine head_of_advance tries (head_of_advance releases ?_)
        cases hm : s.meshIn slot with
        | some m =>
            have keeps : Activity.advance s name maker (.inspecting slot why) = some (s, failed) := by
              simp [Activity.advance, hm, failed]
            have kept : s.discardEmpty name slot = s := by simp [Store.discardEmpty, hm]
            rw [kept]
            exact head_of_advance keeps .refl
        | none =>
            have inspects : Activity.advance s name maker (.inspecting slot why) =
                some (s, stage .dropping) := by simp [Activity.advance, hm, stage]
            have drops : Activity.advance s name maker (.dropping slot why) =
                some (s.forget name, failed) := rfl
            have dropped : s.discardEmpty name slot = s.forget name := by
              simp [Store.discardEmpty, refers, hh, hm]
            rw [dropped]
            exact head_of_advance inspects (head_of_advance drops .refl)
  · have passes : Activity.advance s name maker (.discarding slot why) = some (s, failed) := by
      simp [Activity.advance, refers, failed]
    have kept : s.discardEmpty name slot = s := by simp [Store.discardEmpty, refers]
    rw [kept]
    exact head_of_advance passes .refl

/-- A request that has come to a result puts the mesh into its slot or discards the slot. -/
theorem leads_of_finish (result : Except MeshError (Mesh α)) :
    Leads (s, ⟨.requesting name maker (.making slot (.finish result)), outer⟩)
      ((s.conclude name slot result).2,
        ⟨.answered (.made (s.conclude name slot result).1), outer⟩) := by
  cases result with
  | ok mesh => exact head_of_advance rfl (head_of_advance rfl (head_of_advance rfl .refl))
  | error why => exact head_of_advance rfl (head_of_advance rfl (leads_of_discard why))

/-- A request whose slot has no mesh, up to where it makes the mesh. -/
theorem leads_of_waiting (refers : s.slotOf? name = some slot) (vacant : s.meshIn slot = none)
    (free : s.isHeld slot = false) :
    Leads (s, ⟨.requesting name maker (.waiting slot), outer⟩)
      (((s.lock slot).beginMaking name maker).2,
        ⟨.requesting name maker (.making slot ((s.lock slot).beginMaking name maker).1), outer⟩) := by
  let stage (p : Nat → Progress α) : Activity α := .requesting name maker (p slot)
  have enters : Activity.advance s name maker (.waiting slot) = some (s.lock slot, stage .checking) := by
    simp [Activity.advance, free, stage]
  have checks : Activity.advance (s.lock slot) name maker (.checking slot) =
      some (s.lock slot, stage .confirming) := by simp [Activity.advance, vacant, stage]
  have confirms : Activity.advance (s.lock slot) name maker (.confirming slot) =
      some (s.lock slot, stage .starting) := by simp [Activity.advance, refers, stage]
  exact head_of_advance enters (head_of_advance checks (head_of_advance confirms
    (head_of_advance rfl .refl)))

/-- A request comes to what the request as a whole comes to, if loader runs do. -/
theorem request_isReached {run : Script α → Store α → Outcome α (Except MeshError (Mesh α))}
    (runs : ∀ slot script s, (run script s).IsReached
      (s, ⟨.requesting name maker (.making slot script), outer⟩)
      fun result => ⟨.requesting name maker (.making slot (.finish result)), outer⟩)
    (s : Store α) : ((s.request run name maker).map Reply.made).IsReached
      (s, ⟨.requesting name maker .taking, outer⟩) fun reply => ⟨.answered reply, outer⟩ := by
  have takes : Activity.advance s name maker .taking =
      some ((s.slotFor name).1, .requesting name maker (.looking (s.slotFor name).2)) := rfl
  refine Outcome.IsReached.of_leads (.map ?_) (head_of_advance takes .refl)
  have refers : (s.slotFor name).1.slotOf? name = some (s.slotFor name).2 := by simp
  unfold Store.request
  generalize s.slotFor name = taken at refers
  obtain ⟨t, slot⟩ := taken
  dsimp only at refers ⊢
  cases hm : t.meshIn slot with
  | some m =>
      have finds : Activity.advance t name maker (.looking slot) =
          some (t, .answered (.made (.ok m))) := by simp [Activity.advance, hm]
      exact head_of_advance finds .refl
  | none =>
      have waits : Activity.advance t name maker (.looking slot) =
          some (t, .requesting name maker (.waiting slot)) := by simp [Activity.advance, hm]
      refine Outcome.IsReached.of_leads ?_ (head_of_advance waits .refl)
      cases free : t.isHeld slot with
      | true =>
          refine ⟨(t, ⟨.requesting name maker (.waiting slot), outer⟩), .refl, ?_, rfl⟩
          simp [Thread.step, Activity.step, Activity.advance, free]
      | false =>
          refine Outcome.IsReached.of_leads ?_ (leads_of_waiting refers hm free)
          refine (runs slot _ _).andThen fun result u => ?_
          cases result <;> exact leads_of_finish _

/-! ### Calls -/

/-- A loader run comes to its result, if its calls come to their answers. -/
theorem run_isReached {answer : Store α → Call α → Outcome α (Reply α)}
    (answers : ∀ s c outer,
      (answer s c).IsReached (s, ⟨.ready c, outer⟩) fun reply => ⟨.answered reply, outer⟩) :
    ∀ (script : Script α) (s : Store α), (script.run answer s).IsReached
      (s, ⟨.requesting name maker (.making slot script), outer⟩)
      fun result => ⟨.requesting name maker (.making slot (.finish result)), outer⟩
  | .finish _, _ => .refl
  | .call request next, s => by
      have calls : Leads (s, ⟨.requesting name maker (.making slot (.call request next)), outer⟩)
          (s, ⟨.ready request, ⟨name, maker, slot, next⟩ :: outer⟩) := .single rfl
      refine Outcome.IsReached.of_leads ?_ calls
      refine (answers s request _).andThen fun reply t => ?_
      exact (run_isReached answers (next reply) t).of_leads (.single rfl)

/-- **A thread on its own comes to the answer of its call as a whole**, and to the same store. -/
theorem answer_isReached : ∀ (depth : Nat) (s : Store α) (c : Call α) (outer : List (Pending α)),
    (s.answer depth c).IsReached (s, ⟨.ready c, outer⟩) fun reply => ⟨.answered reply, outer⟩
  | 0, _, _, _ => trivial
  | depth + 1, s, c, outer => by
      have request : ∀ name maker,
          ((s.request (Script.run (Store.answer depth)) name maker).map Reply.made).IsReached
            (s, ⟨.requesting name maker .taking, outer⟩) fun reply => ⟨.answered reply, outer⟩ :=
        fun name maker => request_isReached (fun _ => run_isReached (answer_isReached depth)) s
      have starts : ∀ {t a}, Activity.start s c = (t, a) →
          Leads (s, ⟨.ready c, outer⟩) (t, ⟨a, outer⟩) :=
        fun h => .single (step_of_activity (a := .ready c) (congrArg some h) outer)
      cases c with
      | get name | contains name => exact (starts rfl).trans (leads_of_lookup _ name)
      | names => exact leads_of_names
      | size => exact leads_of_size
      | remove name => exact leads_of_remove name
      | clear | register format loader => exact starts rfl
      | addMesh mesh => exact (request mesh.name (.finished mesh)).of_leads (starts rfl)
      | getOrCreate name spec => exact (request name (.generator spec)).of_leads (starts rfl)
      | createExtruded name extrusion =>
          have looks := (starts rfl).trans (leads_of_lookup (.createExtruded name extrusion) name)
          simp only [Store.answer]
          cases hget : s.get name with
          | some m =>
              rw [hget] at looks
              exact looks
          | none =>
              rw [hget] at looks
              exact (request name _).of_leads looks
      | load path =>
          simp only [Store.answer]
          cases hd : s.dispatch path with
          | error e => exact starts (by simp [Activity.start, hd])
          | ok r => exact (request path (.file path r)).of_leads (starts (by simp [Activity.start, hd]))

end Thread

/-! ### A store with one thread -/

theorem Activity.holdsTable_of_takesTable {a : Activity α} (h : a.takesTable = true) :
    a.holdsTable = false := by
  cases a with
  | requesting name maker p => cases p <;> first | rfl | cases h
  | _ => rfl

namespace SharedStore

variable [Scalar α]

/-- A thread on its own never waits for the table. -/
theorem step_alone {s s' : Store α} {t t' : Thread α} (h : t.step s = some (s', t')) :
    step ⟨s, [t]⟩ (.advance 0) = some ⟨s', [t']⟩ := by
  refine step_advance_iff.mpr ⟨t, t', s', rfl, fun takes => ?_, h, rfl⟩
  simp [isTableFree, Activity.holdsTable_of_takesTable takes]

theorem run_alone {p q : Store α × Thread α} (h : Thread.Leads p q) :
    ∃ n, run ⟨p.1, [p.2]⟩ (.replicate n (.advance 0)) = some ⟨q.1, [q.2]⟩ := by
  induction h using Relation.ReflTransGen.head_induction_on with
  | refl => exact ⟨0, rfl⟩
  | head happens _ ih =>
      obtain ⟨n, hn⟩ := ih
      refine ⟨n + 1, ?_⟩
      rw [List.replicate_succ]
      simpa [run, step_alone happens] using hn

/-- A call that is answered is answered alike by a thread on its own. -/
theorem answers_alone {depth : Nat} {s s' : Store α} {c : Call α} {reply : Reply α}
    (h : s.answer depth c = .done reply s') :
    ∃ n, (ofCalls s [c]).run (.replicate n (.advance 0)) = some ⟨s', [⟨.answered reply, []⟩]⟩ := by
  have hreached := Thread.answer_isReached depth s c []
  rw [h] at hreached
  exact run_alone hreached

/-- A call that stalls leaves a thread on its own without an answer and without a next section. -/
theorem stalls_alone {depth : Nat} {s : Store α} {c : Call α}
    (h : s.answer depth c = .stalled .deadlock) :
    ∃ n shared, (ofCalls s [c]).run (.replicate n (.advance 0)) = some shared ∧
      shared.isIdle = false ∧ shared.step (.advance 0) = none := by
  have hreached := Thread.answer_isReached depth s c []
  rw [h] at hreached
  obtain ⟨q, leads, waits, unanswered⟩ := hreached
  obtain ⟨n, run⟩ := run_alone leads
  refine ⟨n, _, run, by simp [isIdle, unanswered], ?_⟩
  simp [step, waits]

end SharedStore

end TriMesh
