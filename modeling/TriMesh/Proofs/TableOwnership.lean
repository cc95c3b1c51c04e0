import TriMesh.Proofs.SlotOwnership

/-! # Who has the table

A discard has the table for itself while it looks at the slot from outside. The writer lock is free
when it sees to that, but the lock is given back at once, so that another call may take it before the
name is out of the table.

* **Guards.** Such a call comes no further than to `confirming`, for which it needs the table. Hence
  the slot stays empty once it has been seen empty, and when it loses its name nobody has begun to make
  its mesh (`Hosts.eq_checking_or_confirming`).
* **Orderly.** A shared store whose slots and table are owned as they should be stays so, whatever calls
  come in whatever order (`SharedStore.Orderly.step`). -/

namespace TriMesh

variable {α : Type}

namespace Stage

variable {st : Stage α}

/-- The discard has found the lock free. -/
def found : Stage α → Bool
  | releasing | inspecting | dropping => true
  | _ => false

theorem closes_of_found (h : st.found = true) : st.closes = true := by
  cases st <;> simp_all [found, closes]

theorem works_of_found (h : st.found = true) : st.works = false := by
  cases st <;> simp_all [found, works]

end Stage

namespace Store

variable {s s' : Store α} {f : Frame α} {F : List (Frame α)} {E : List Nat} {name : String} {slot : Nat}

/-- What a discard can rely on while it has the table for itself. -/
structure Guards (s : Store α) (F : List (Frame α)) : Prop where
  one : F.countP (·.stage.closes) ≤ 1
  refers : ∀ f ∈ F, f.stage.closes = true → s.slotOf? f.name = some f.slot
  unworked : ∀ f ∈ F, f.stage.found = true → ∀ g ∈ F, g.slot = f.slot → g.stage.works = false
  vacant : ∀ f ∈ F, f.stage = .dropping → s.meshIn f.slot = none

namespace Guards

theorem perm {F' : List (Frame α)} (h : s.Guards F) (hF : F.Perm F') : s.Guards F' where
  one := hF.countP_eq _ ▸ h.one
  refers f hf := h.refers f (hF.mem_iff.mpr hf)
  unworked f hf hfound g hg := h.unworked f (hF.mem_iff.mpr hf) hfound g (hF.mem_iff.mpr hg)
  vacant f hf := h.vacant f (hF.mem_iff.mpr hf)

/-- Where the table is free there is nothing to guard. -/
theorem of_free (free : ∀ f ∈ F, f.stage.closes = false) : s.Guards F where
  one := by
    rw [List.countP_eq_zero.mpr fun f hf => by simp [free f hf]]
    exact Nat.zero_le 1
  refers f hf hcloses := by simp [free f hf] at hcloses
  unworked f hf hfound := by
    have := Stage.closes_of_found hfound
    simp [free f hf] at this
  vacant f hf hst := by
    have := free f hf
    simp [hst, Stage.closes] at this

theorem tail (h : s.Guards (f :: F)) : s.Guards F where
  one := Nat.le_trans (List.sublist_cons_self f F).countP_le h.one
  refers g hg := h.refers g (List.mem_cons_of_mem _ hg)
  unworked g hg hfound g' hg' :=
    h.unworked g (List.mem_cons_of_mem _ hg) hfound g' (List.mem_cons_of_mem _ hg')
  vacant g hg := h.vacant g (List.mem_cons_of_mem _ hg)

/-- Beside a discard there is no other. -/
theorem closes_eq_false (h : s.Guards (f :: F)) (hf : f.stage.closes = true) :
    ∀ g ∈ F, g.stage.closes = false := by
  have hone := h.one
  rw [List.countP_cons, if_pos hf] at hone
  have hzero : F.countP (·.stage.closes) = 0 := by omega
  intro g hg
  simpa using List.countP_eq_zero.mp hzero g hg

/-- The store changes under a discard without a change to its slot. -/
theorem of_kept (h : s.Guards F) (refers : ∀ n i, s.slotOf? n = some i → s'.slotOf? n = some i)
    (mesh : ∀ f ∈ F, f.stage = .dropping → s.meshIn f.slot = none → s'.meshIn f.slot = none) :
    s'.Guards F where
  one := h.one
  refers f hf hcloses := refers _ _ (h.refers f hf hcloses)
  unworked := h.unworked
  vacant f hf hst := mesh f hf hst (h.vacant f hf hst)

/-- A call gets hold of a slot without taking the table. -/
theorem cons {st : Stage α} (h : s.Guards F) (closes : st.closes = false) (works : st.works = false) :
    s.Guards (⟨name, slot, st⟩ :: F) where
  one := by
    rw [List.countP_cons, if_neg (by simp [closes])]
    exact h.one
  refers := List.forall_mem_cons.mpr ⟨fun e => by simp [closes] at e, h.refers⟩
  unworked := by
    refine List.forall_mem_cons.mpr ⟨fun hfound => ?_, fun f hf hfound => ?_⟩
    · have := Stage.closes_of_found hfound
      simp [closes] at this
    · exact List.forall_mem_cons.mpr ⟨fun _ => works, h.unworked f hf hfound⟩
  vacant := by
    refine List.forall_mem_cons.mpr ⟨fun e => ?_, h.vacant⟩
    simp only at e
    simp [e, Stage.closes] at closes

/-- A call goes on with its slot: a discard has found the lock free before or finds it so now, and
otherwise nobody takes the table or begins to make a mesh. -/
theorem restage {st st' : Stage α} (h : s.Guards (⟨name, slot, st⟩ :: F))
    (closes : st'.closes = true → st.closes = true) (works : st'.works = true → st.works = true)
    (found : st'.found = true → st.found = true ∨ ∀ g ∈ F, g.slot = slot → g.stage.works = false)
    (vacant : st' = .dropping → s.meshIn slot = none) : s.Guards (⟨name, slot, st'⟩ :: F) where
  one := by
    refine Nat.le_trans ?_ h.one
    rw [List.countP_cons, List.countP_cons]
    by_cases hst' : st'.closes = true
    · simp [hst', closes hst']
    · simp [hst']
  refers := by
    obtain ⟨hf, hF⟩ := List.forall_mem_cons.mp h.refers
    exact List.forall_mem_cons.mpr ⟨fun e => hf (closes e), hF⟩
  unworked := by
    obtain ⟨hf, hF⟩ := List.forall_mem_cons.mp h.unworked
    refine List.forall_mem_cons.mpr ⟨fun hfound => ?_, fun f hmem hfound => ?_⟩
    · refine List.forall_mem_cons.mpr ⟨fun _ => Stage.works_of_found hfound, ?_⟩
      exact (found hfound).elim (fun hst => (List.forall_mem_cons.mp (hf hst)).2) id
    · obtain ⟨hself, hrest⟩ := List.forall_mem_cons.mp (hF f hmem hfound)
      refine List.forall_mem_cons.mpr ⟨fun e => ?_, hrest⟩
      exact Bool.eq_false_iff.mpr fun hst' => by simpa [works hst'] using hself e
  vacant := List.forall_mem_cons.mpr ⟨vacant, (List.forall_mem_cons.mp h.vacant).2⟩

/-- A call goes on with its slot that has not got the table for itself. -/
theorem onward {st st' : Stage α} (h : s.Guards (⟨name, slot, st⟩ :: F)) (closes : st'.closes = false)
    (works : st'.works = true → st.works = true) : s.Guards (⟨name, slot, st'⟩ :: F) := by
  refine h.restage (fun e => by simp [closes] at e) works (fun hfound => ?_) fun e => ?_
  · have := Stage.closes_of_found hfound
    simp [closes] at this
  · simp [e, Stage.closes] at closes

/-- A discard takes the table. -/
theorem close {st : Stage α} (free : ∀ f ∈ F, f.stage.closes = false)
    (refers : s.slotOf? name = some slot) (hst : st.found = false) :
    s.Guards (⟨name, slot, st⟩ :: F) where
  one := by
    rw [List.countP_cons, List.countP_eq_zero.mpr fun f hf => by simp [free f hf]]
    split <;> decide
  refers := List.forall_mem_cons.mpr ⟨fun _ => refers, (of_free free).refers⟩
  unworked := by
    refine List.forall_mem_cons.mpr ⟨fun hfound => by simp [hst] at hfound, fun f hf hfound => ?_⟩
    have := Stage.closes_of_found hfound
    simp [free f hf] at this
  vacant := by
    refine List.forall_mem_cons.mpr ⟨fun e => ?_, (of_free free).vacant⟩
    simp only at e
    simp [e, Stage.found] at hst

end Guards

end Store

/-! ### Moves -/

variable {ok : Call α → Prop} {free : Prop} {v v' : View α}

/-- What a discard relies on is kept by every move. -/
theorem Move.guards (h : Move ok free v v') {F : List (Frame α)} {E : List Nat}
    (hosts : v.store.Hosts (v.frames ++ F) (v.emptied ++ E)) (guards : v.store.Guards (v.frames ++ F))
    (table : free → ∀ f ∈ F, f.stage.closes = false) : v'.store.Guards (v'.frames ++ F) := by
  cases h with
  | still table slots =>
      exact guards.of_kept (by simp [Store.slotOf?, table]) (by simp [Store.meshIn, slots])
  | look => exact guards.cons rfl rfl
  | done => exact guards.tail
  | take free =>
      exact .of_free (List.forall_mem_cons.mpr ⟨rfl, table free⟩)
  | @lock s name slot st st' locks unheld =>
      have hnext : s.Guards (⟨name, slot, st'⟩ :: F) := by
        cases locks with
        | enter => exact guards.onward rfl fun e => by cases e
        | attempt =>
            refine guards.restage (fun _ => rfl) (fun e => by cases e) (fun _ => .inr fun g hg e => ?_)
              fun e => by cases e
            -- a call at work would hold the lock
            refine Bool.eq_false_iff.mpr fun hworks => ?_
            have hheld := hosts.isHeld (List.mem_cons_of_mem _ hg) (Stage.holds_of_works hworks)
            rw [e, unheld] at hheld
            cases hheld
      exact hnext.of_kept (by simp) (by simp)
  | @next s s' name slot st st' next htable slots =>
      have hnext : s.Guards (⟨name, slot, st'⟩ :: F) := by
        cases next with
        | start free | retreat free => exact .of_free (List.forall_mem_cons.mpr ⟨rfl, table free⟩)
        | close free refers => exact .close (table free) refers rfl
        | inspect vacant =>
            exact guards.restage (fun _ => rfl) (fun e => by cases e) (fun _ => .inl rfl) fun _ => vacant
        | wait | recheck | confirm => exact guards.onward rfl fun e => by cases e
        | make | publish | fail => exact guards.onward rfl fun _ => rfl
      exact hnext.of_kept (by simp [Store.slotOf?, htable]) (by simp [Store.meshIn, slots])
  | @publish s name slot mesh =>
      have hlt : slot < s.slots.size := (hosts.fits ⟨name, slot, .publishing⟩ (by simp)).lt
      have hnext : s.Guards (⟨name, slot, .leaving ⟨s.published, mesh⟩⟩ :: F) :=
        guards.onward rfl fun e => by cases e
      refine hnext.of_kept (by simp) fun f hf hst hm => ?_
      obtain rfl | hf := List.mem_cons.mp hf
      · cases hst
      · -- the slot of a discard is not worked on
        have hne : f.slot ≠ slot := fun e => by
          have := guards.unworked f (List.mem_cons_of_mem _ hf) (by rw [hst]; rfl)
            ⟨name, slot, .publishing⟩ (by simp) e.symm
          cases this
        simpa [Store.meshIn_publish _ _ _ hlt, hne] using hm
  | retreat | leave => exact guards.tail.of_kept (by simp) (by simp)
  | @unlock s name slot st st' unlocks =>
      have hnext : s.Guards (⟨name, slot, st'⟩ :: F) := by
        cases unlocks with
        | fail => exact guards.onward rfl fun e => by cases e
        | release =>
            exact guards.restage (fun _ => rfl) (fun e => by cases e) (fun _ => .inl rfl)
              fun e => by cases e
      exact hnext.of_kept (by simp) (by simp)
  | drop => exact .of_free (guards.closes_eq_false rfl)
  | forget free | clear free => exact .of_free (table free)
  | empty =>
      refine guards.of_kept (by simp) fun f _ _ hm => ?_
      simp [hm]

/-! ### Runs -/

namespace SharedStore

/-- A store and its threads fit together. -/
structure Orderly (shared : SharedStore α) : Prop extends
    shared.store.Hosts shared.frames shared.emptied where
  guards : shared.store.Guards shared.frames

variable {shared : SharedStore α} {F : List (Frame α)} {E : List Nat}

theorem Orderly.within (h : shared.Orderly) (hv : v.Within F E shared) :
    v.store.Hosts (v.frames ++ F) (v.emptied ++ E) :=
  hv.store ▸ h.toHosts.perm hv.frames hv.emptied

theorem Orderly.guards_within (h : shared.Orderly) (hv : v.Within F E shared) :
    v.store.Guards (v.frames ++ F) :=
  hv.store ▸ h.guards.perm hv.frames

theorem frames_of_isIdle (h : shared.isIdle = true) :
    shared.frames = [] ∧ shared.emptied = [] := by
  have hthreads : ∀ t ∈ shared.threads, t.frames = [] ∧ t.now.emptied = [] := by
    intro t ht
    have hreply := List.all_eq_true.mp h t ht
    unfold Thread.reply? at hreply
    split at hreply
    · next hnow houter => simp [Thread.frames, hnow, houter, Activity.frames, Activity.emptied]
    · cases hreply
  simp only [frames, emptied, List.flatMap_eq_nil_iff]
  exact ⟨fun t ht => (hthreads t ht).1, fun t ht => (hthreads t ht).2⟩

theorem Orderly.of_within (hv : v.Within F E shared)
    (hosts : v.store.Hosts (v.frames ++ F) (v.emptied ++ E)) (guards : v.store.Guards (v.frames ++ F)) :
    shared.Orderly where
  toHosts := hv.store ▸ hosts.perm hv.frames.symm hv.emptied.symm
  guards := hv.store ▸ guards.perm hv.frames.symm

variable [Scalar α]

theorem Orderly.step {shared' : SharedStore α} {event : Event α} (h : shared.Orderly)
    (happens : shared.step event = some shared') : shared'.Orderly := by
  obtain ⟨v, v', F, E, move, hv, hv'⟩ := move_of_step (fun _ hc => hc) happens
  refine .of_within hv' (move.hosts (h.within hv))
    (move.guards (h.within hv) (h.guards_within hv) fun free f hf => ?_)
  exact closes_eq_false free f (hv.frames.mem_iff.mpr (List.mem_append_right _ hf))

/-- A store between calls, without threads. -/
theorem orderly_of_occurs {s : Store α} (h : s.Occurs []) : Orderly { store := s } where
  toSound := h.resting.toSound
  fits f hf := by simp [frames] at hf
  same f hf := by simp [frames] at hf
  held i := by simp [frames, h.isHeld]
  attended hn hm := absurd (h.resting.pending hn hm) (by simp)
  unreferenced i hi := by simp [emptied] at hi
  nodup_emptied := by simp [emptied]
  guards := .of_free fun f hf => by simp [frames] at hf

end SharedStore

end TriMesh
