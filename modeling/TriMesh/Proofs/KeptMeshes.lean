import TriMesh.Proofs.Chronicles

/-! # Meshes that stay

What keeps the mesh of one name where it is, if the name is not taken out while it has a mesh or a mesh
is being made for it (`Spares`). Other names may come and go.

* **Faithful slots.** The name refers to the slot of every call for it that is bound to its slot or
  whose slot has a mesh (`Move.faithful`). A call that has lost its slot has seen so and is not bound.
* **Meshes.** Once in its slot, a mesh stays there and the name goes on to refer to the slot
  (`Move.keeps`).
* **Answers.** A mesh that a call for the name is answered has come out of the slot of the call, and
  is therefore the mesh of the name, then and later (`Chronicle.Kept.step`). -/

namespace TriMesh

variable {α : Type}

/-- The call is bound to a slot that its name has been seen to refer to. -/
def Stage.binds : Stage α → Bool
  | starting | making | publishing | leaving _ => true
  | _ => false

theorem Stage.binds_of_fills {st : Stage α} (h : st.fills = true) : st.binds = true := by
  cases st <;> simp_all [binds, fills]

theorem Stage.works_of_fills {st : Stage α} (h : st.fills = true) : st.works = true := by
  cases st <;> simp_all [works, fills]

theorem Stage.eq_leaving_of_binds {st : Stage α} (h : st.binds = true) (hf : st.fills = false) :
    ∃ m, st = .leaving m := by
  cases st <;> simp_all [binds, fills]

/-- A name refers to the slot of the call if the call is bound to it or the slot has a mesh. -/
def Frame.IsFaithful (name : String) (s : Store α) (f : Frame α) : Prop :=
  f.name = name → f.stage.binds = true ∨ (s.meshIn f.slot).isSome = true →
    s.slotOf? name = some f.slot

theorem Frame.IsFaithful.of_kept {name : String} {s s' : Store α} {f : Frame α} {st : Stage α}
    (h : f.IsFaithful name s) (binds : st.binds = true → f.stage.binds = true)
    (refers : s.slotOf? name = some f.slot → s'.slotOf? name = some f.slot)
    (mesh : (s'.meshIn f.slot).isSome = true → (s.meshIn f.slot).isSome = true) :
    Frame.IsFaithful name s' { f with stage := st } :=
  fun hname hb => refers (h hname (hb.imp binds mesh))

/-- A name refers to the slot in which its mesh is or will be. -/
def Faithful (name : String) (s : Store α) (F : List (Frame α)) : Prop :=
  ∀ f ∈ F, f.IsFaithful name s

/-- The name is not taken out as long as it has a mesh or a mesh is being made for it. -/
structure Spares (ok : Call α → Prop) (name : String) (s : Store α) (F : List (Frame α)) : Prop where
  clear : ¬ ok .clear
  remove : ok (.remove name) → s.get name = none ∧ ∀ f ∈ F, f.name = name → f.stage.fills = false

section Faithful

variable {name n : String} {s s' : Store α} {f : Frame α} {F : List (Frame α)} {E : List Nat} {i : Nat}

theorem Faithful.of_kept (h : Faithful name s F)
    (refers : ∀ {slot}, s.slotOf? name = some slot → s'.slotOf? name = some slot)
    (mesh : ∀ {slot}, (s'.meshIn slot).isSome = true → (s.meshIn slot).isSome = true) :
    Faithful name s' F :=
  fun f hf => (h f hf).of_kept id refers mesh

/-- A call goes on with its slot, and is bound to it only if it has been so before. -/
theorem Faithful.cons_of_kept {st : Stage α} (h : Faithful name s (f :: F))
    (binds : st.binds = true → f.stage.binds = true)
    (refers : ∀ {slot}, s.slotOf? name = some slot → s'.slotOf? name = some slot)
    (mesh : ∀ {slot}, (s'.meshIn slot).isSome = true → (s.meshIn slot).isSome = true) :
    Faithful name s' ({ f with stage := st } :: F) := by
  obtain ⟨hf, hF⟩ := List.forall_mem_cons.mp h
  exact List.forall_mem_cons.mpr ⟨hf.of_kept binds refers mesh, Faithful.of_kept hF refers mesh⟩

theorem Faithful.next {free : Prop} {st st' : Stage α} (h : Faithful name s (⟨n, i, st⟩ :: F))
    (next : st.Next free s n i st') (table : s'.table = s.table) (slots : s'.slots = s.slots) :
    Faithful name s' (⟨n, i, st'⟩ :: F) := by
  have hrefers : ∀ {slot}, s.slotOf? name = some slot → s'.slotOf? name = some slot := by
    simp [Store.slotOf?, table]
  have hmesh : ∀ {slot}, (s'.meshIn slot).isSome = true → (s.meshIn slot).isSome = true := by
    simp [Store.meshIn, slots]
  obtain ⟨hf, hF⟩ := List.forall_mem_cons.mp h
  cases next with
  | recheck full =>
      refine List.forall_mem_cons.mpr ⟨fun e _ => ?_, Faithful.of_kept hF hrefers hmesh⟩
      exact hrefers (hf e (.inr (by simp [full])))
  | start _ refers =>
      refine List.forall_mem_cons.mpr ⟨fun e _ => ?_, Faithful.of_kept hF hrefers hmesh⟩
      exact hrefers (e ▸ refers)
  | _ => exact h.cons_of_kept (by simp [Stage.binds]) hrefers hmesh

theorem Faithful.publish (h : Faithful name s (⟨n, i, .publishing⟩ :: F))
    (hosts : s.Hosts (⟨n, i, .publishing⟩ :: F) E) (mesh : Mesh α) (st : Stage α) :
    Faithful name (s.publish i mesh).1 (⟨n, i, st⟩ :: F) := by
  obtain ⟨hf, hF⟩ := List.forall_mem_cons.mp h
  have hlt : i < s.slots.size := (hosts.fits ⟨n, i, .publishing⟩ (by simp)).lt
  refine List.forall_mem_cons.mpr ⟨fun e _ => hf e (.inl rfl), fun g hg e hb => ?_⟩
  by_cases hi : g.slot = i
  · -- calls that share a slot share the name
    have hn : g.name = n :=
      hosts.same g (List.mem_cons_of_mem _ hg) ⟨n, i, .publishing⟩ (by simp) hi
    exact hi ▸ hf (hn ▸ e) (.inl rfl)
  · exact hF g hg e (hb.imp_right (by simp [Store.meshIn_publish _ _ _ hlt, hi]))

/-- Nobody is bound to the slot of a name that has no mesh if nobody makes one. -/
theorem Frame.IsFaithful.forget (h : f.IsFaithful name s) (hosts : s.Hosts F E) (hf : f ∈ F)
    (vacant : name = n → s.get name = none)
    (idle : name = n → f.name = name → f.stage.fills = false) : f.IsFaithful name (s.forget n) := by
  intro e hb
  have hrefers := h e hb
  by_cases hne : name = n
  · have hm : s.meshIn f.slot = none := by rw [← Store.get_of_slotOf? hrefers, vacant hne]
    obtain hb | hb := hb
    · obtain ⟨m, hleaving⟩ := Stage.eq_leaving_of_binds hb (idle hne e)
      rw [(hosts.fits f hf).full hleaving (e ▸ hrefers)] at hm
      cases hm
    · simp [hm] at hb
  · rw [Store.slotOf?_forget, if_neg hne]
    exact hrefers

/-- Nobody is bound to a slot that is about to lose its name. -/
theorem Faithful.dropping (h : Faithful name s (⟨n, i, .dropping⟩ :: F))
    (hosts : s.Hosts (⟨n, i, .dropping⟩ :: F) E) (guards : s.Guards (⟨n, i, .dropping⟩ :: F)) :
    Faithful name (s.forget n) F := by
  have hself : (⟨n, i, .dropping⟩ : Frame α) ∈ (⟨n, i, .dropping⟩ : Frame α) :: F := by simp
  have refers : s.slotOf? n = some i := guards.refers _ hself rfl
  have vacant : s.meshIn i = none := guards.vacant _ hself rfl
  intro g hg
  have hmem := List.mem_cons_of_mem (⟨n, i, .dropping⟩ : Frame α) hg
  refine (h g hmem).forget hosts hmem (fun e => ?_) fun e hname => ?_
  · rw [e, Store.get_of_slotOf? refers, vacant]
  · refine Bool.eq_false_iff.mpr fun hfills => ?_
    have hrefers := h g hmem hname (.inl (Stage.binds_of_fills hfills))
    have hslot : g.slot = i := Option.some.inj (hrefers.symm.trans (e ▸ refers))
    have := guards.unworked _ hself rfl g hmem hslot
    simp [Stage.works_of_fills hfills] at this

end Faithful

namespace Move

variable {ok : Call α → Prop} {free : Prop} {v v' : View α} {F : List (Frame α)} {E : List Nat}
  {name : String}

/-- A name that has a mesh keeps its slot and the mesh. -/
theorem keeps (h : Move ok free v v') (hosts : v.store.Hosts (v.frames ++ F) (v.emptied ++ E))
    (guards : v.store.Guards (v.frames ++ F)) (spares : Spares ok name v.store (v.frames ++ F))
    {slot : Nat} {m : Handle α} (refers : v.store.slotOf? name = some slot)
    (full : v.store.meshIn slot = some m) :
    v'.store.slotOf? name = some slot ∧ v'.store.meshIn slot = some m := by
  cases h with
  | still table slots | next _ table slots =>
      exact ⟨by simpa [Store.slotOf?, table] using refers, by simpa [Store.meshIn, slots] using full⟩
  | look | done => exact ⟨refers, full⟩
  | take => exact ⟨Store.slotOf?_slotFor_of_some _ refers, by simpa using full⟩
  | lock | retreat | leave | unlock => exact ⟨by simpa using refers, by simpa using full⟩
  | @publish s n i mesh =>
      have hfit : s.Fits ⟨n, i, .publishing⟩ := hosts.fits _ (by simp)
      have hne : slot ≠ i := by
        rintro rfl
        simp [hfit.vacant rfl] at full
      exact ⟨by simpa using refers, by simpa [Store.meshIn_publish _ _ _ hfit.lt, hne] using full⟩
  | @drop s n i =>
      have hself : (⟨n, i, .dropping⟩ : Frame α) ∈ [⟨n, i, .dropping⟩] ++ F := by simp
      have hne : name ≠ n := by
        rintro rfl
        have hslot : slot = i := Option.some.inj (refers.symm.trans (guards.refers _ hself rfl))
        have vacant : s.meshIn i = none := guards.vacant _ hself rfl
        rw [← hslot, full] at vacant
        cases vacant
      exact ⟨by simpa [hne] using refers, by simpa using full⟩
  | @forget s n i _ begins hn =>
      have hne : name ≠ n := by
        rintro rfl
        have := (spares.remove begins).1
        grind [Store.get_of_slotOf?]
      exact ⟨by simpa [hne] using refers, by simpa using full⟩
  | @empty s i =>
      have hne : slot ≠ i := fun e => (hosts.unreferenced i (by simp)).2 name (e ▸ refers)
      exact ⟨by simpa using refers, by simpa [hne] using full⟩
  | clear _ begins => exact absurd begins spares.clear

/-- The slot of the call that moves stays faithful, and so do those of all others. -/
theorem faithful (h : Move ok free v v') (hosts : v.store.Hosts (v.frames ++ F) (v.emptied ++ E))
    (guards : v.store.Guards (v.frames ++ F)) (spares : Spares ok name v.store (v.frames ++ F))
    (faithful : Faithful name v.store (v.frames ++ F)) :
    Faithful name v'.store (v'.frames ++ F) := by
  cases h with
  | still table slots =>
      exact faithful.of_kept (by simp [Store.slotOf?, table]) (by simp [Store.meshIn, slots])
  | look refers => exact List.forall_mem_cons.mpr ⟨fun e _ => e ▸ refers, faithful⟩
  | done => exact (List.forall_mem_cons.mp faithful).2
  | @take s n =>
      refine List.forall_mem_cons.mpr ⟨fun e _ => by simp [← e], ?_⟩
      exact faithful.of_kept (Store.slotOf?_slotFor_of_some _) (by simp)
  | lock locks =>
      cases locks <;> exact faithful.cons_of_kept (by simp [Stage.binds]) (by simp) (by simp)
  | unlock unlocks =>
      cases unlocks <;> exact faithful.cons_of_kept (by simp [Stage.binds]) (by simp) (by simp)
  | next next table slots => exact faithful.next next table slots
  | publish => exact faithful.publish hosts _ _
  | retreat | leave =>
      exact Faithful.of_kept (List.forall_mem_cons.mp faithful).2 (by simp) (by simp)
  | drop => exact faithful.dropping hosts guards
  | forget _ begins =>
      intro g hg
      exact (faithful g hg).forget hosts hg (fun e => (spares.remove (e ▸ begins)).1)
        fun e => (spares.remove (e ▸ begins)).2 g hg
  | empty =>
      refine faithful.of_kept (by simp) fun hm => ?_
      rw [Store.meshIn_takeOut] at hm
      split at hm
      · cases hm
      · exact hm
  | clear _ begins => exact absurd begins spares.clear

/-- A mesh that is about to be put into its slot, or has been, stays. -/
theorem stored (h : Move ok free v v') (hosts : v.store.Hosts (v.frames ++ F) (v.emptied ++ E))
    (guards : v.store.Guards (v.frames ++ F)) (spares : Spares ok name v.store (v.frames ++ F))
    (faithful : Faithful name v.store (v.frames ++ F))
    (stored : (v.store.get name).isSome = true ∨
      ∃ f ∈ v.frames ++ F, f.name = name ∧ f.stage = .publishing) :
    (v'.store.get name).isSome = true ∨ ∃ f ∈ v'.frames ++ F, f.name = name ∧ f.stage = .publishing := by
  obtain hget | ⟨f, hf, hname, hst⟩ := stored
  · obtain ⟨m, hm⟩ := Option.isSome_iff_exists.mp hget
    obtain ⟨slot, refers, full⟩ := Store.get_eq_some_iff.mp hm
    obtain ⟨refers, full⟩ := h.keeps hosts guards spares refers full
    exact .inl (by simp [Store.get_of_slotOf? refers, full])
  · obtain hf | hf := List.mem_append.mp hf
    · cases h with
      | @publish s n i mesh =>
          obtain rfl : f = ⟨n, i, .publishing⟩ := by simpa using hf
          have hlt : i < s.slots.size := (hosts.fits ⟨n, i, .publishing⟩ (by simp)).lt
          have refers : s.slotOf? name = some i := faithful ⟨n, i, .publishing⟩ (by simp) hname (.inl rfl)
          have refers' : (s.publish i mesh).1.slotOf? name = some i := by simpa using refers
          exact .inl (by simp [Store.get_of_slotOf? refers', Store.meshIn_publish _ _ _ hlt])
      | next next => cases next <;> simp_all
      | done ends => cases ends <;> simp_all
      | lock locks => cases locks <;> simp_all
      | unlock unlocks => cases unlocks <;> simp_all
      | _ => simp_all
    · exact .inr ⟨f, List.mem_append_right _ hf, hname, hst⟩

end Move

/-! ### Events -/

namespace SharedStore

theorem mem_frames {shared : SharedStore α} {i : Nat} {t : Thread α} {f : Frame α}
    (ht : shared.threads[i]? = some t) (hf : f ∈ t.now.frames) : f ∈ shared.frames :=
  List.mem_flatMap.mpr ⟨t, List.mem_of_getElem? ht, List.mem_append_left _ hf⟩

/-- An event does not take the name out as long as it has a mesh or one is being made for it. -/
abbrev Spares (shared : SharedStore α) (event : Event α) (name : String) : Prop :=
  TriMesh.Spares (shared.begins? event = some ·) name shared.store shared.frames

variable {shared shared' : SharedStore α} {event : Event α} {name : String}

theorem Spares.within (spares : shared.Spares event name) {v : View α} {F : List (Frame α)}
    {E : List Nat} (hv : v.Within F E shared) :
    TriMesh.Spares (shared.begins? event = some ·) name v.store (v.frames ++ F) where
  clear := spares.clear
  remove hc := by
    obtain ⟨hget, hfills⟩ := spares.remove hc
    exact ⟨hv.store ▸ hget, fun f hf => hfills f (hv.frames.mem_iff.mpr hf)⟩

variable [Scalar α]

theorem Orderly.keeps (h : shared.Orderly) (happens : shared.step event = some shared')
    (spares : shared.Spares event name) {slot : Nat} {m : Handle α}
    (refers : shared.store.slotOf? name = some slot) (full : shared.store.meshIn slot = some m) :
    shared'.store.slotOf? name = some slot ∧ shared'.store.meshIn slot = some m := by
  obtain ⟨v, v', F, E, move, hv, hv'⟩ := move_of_step (fun _ hc => hc) happens
  rw [← hv.store] at refers full
  rw [← hv'.store]
  exact move.keeps (h.within hv) (h.guards_within hv) (spares.within hv) refers full

theorem Orderly.get_kept (h : shared.Orderly) (happens : shared.step event = some shared')
    (spares : shared.Spares event name) {m : Handle α} (hget : shared.store.get name = some m) :
    shared'.store.get name = some m := by
  obtain ⟨slot, refers, full⟩ := Store.get_eq_some_iff.mp hget
  exact Store.get_eq_some_iff.mpr ⟨slot, h.keeps happens spares refers full⟩

theorem Orderly.faithful (h : shared.Orderly) (happens : shared.step event = some shared')
    (spares : shared.Spares event name) (faithful : Faithful name shared.store shared.frames) :
    Faithful name shared'.store shared'.frames := by
  obtain ⟨v, v', F, E, move, hv, hv'⟩ := move_of_step (fun _ hc => hc) happens
  have hbefore : Faithful name v.store (v.frames ++ F) := fun f hf =>
    hv.store ▸ faithful f (hv.frames.mem_iff.mpr hf)
  have hafter := move.faithful (h.within hv) (h.guards_within hv) (spares.within hv) hbefore
  exact fun f hf => hv'.store ▸ hafter f (hv'.frames.mem_iff.mp hf)

theorem Orderly.stored (h : shared.Orderly) (happens : shared.step event = some shared')
    (spares : shared.Spares event name) (faithful : Faithful name shared.store shared.frames)
    (stored : (shared.store.get name).isSome = true ∨
      ∃ f ∈ shared.frames, f.name = name ∧ f.stage = .publishing) :
    (shared'.store.get name).isSome = true ∨
      ∃ f ∈ shared'.frames, f.name = name ∧ f.stage = .publishing := by
  obtain ⟨v, v', F, E, move, hv, hv'⟩ := move_of_step (fun _ hc => hc) happens
  have hbefore : Faithful name v.store (v.frames ++ F) := fun f hf =>
    hv.store ▸ faithful f (hv.frames.mem_iff.mpr hf)
  have := move.stored (h.within hv) (h.guards_within hv) (spares.within hv) hbefore
  simpa only [hv.store, hv'.store, ← hv.frames.mem_iff, ← hv'.frames.mem_iff] using
    this (by simpa only [hv.store, ← hv.frames.mem_iff] using stored)

end SharedStore

/-! ### Answers -/

section Answers

variable {s s' : Store α} {name : String}

theorem Activity.start_ne_ok (c : Call α) (m : Handle α) :
    Activity.start s c ≠ (s', .answered (.made (.ok m))) := by
  intro h
  have hlookup : ∀ {name}, Activity.lookup s c name ≠ .answered (.made (.ok m)) := by
    intro name h
    unfold lookup at h
    split at h
    · cases h
    · cases c <;> cases h
  cases c with
  | get name | contains name | createExtruded name e => exact hlookup (congrArg Prod.snd h)
  | remove name | load path =>
      simp only [start] at h
      split at h <;> cases h
  | _ => cases h

variable [Scalar α]

/-- A mesh that is answered is in the slot of the call. -/
theorem Activity.exists_frame_of_ok {a : Activity α} {c : Call α} {m : Handle α} (h : a.Serves c)
    (wanted : c.wanted? = some name)
    (happens : a.step s = some (s', .answered (.made (.ok m)))) :
    ∃ f ∈ a.frames, f.name = name ∧ (f.stage = .leaving m ∨ s.meshIn f.slot = some m) := by
  cases a with
  | ready call => exact absurd (Option.some.inj happens) (start_ne_ok call m)
  | reading call slot =>
      obtain rfl := h
      have happens : afterLookup call (s.meshIn slot) = .answered (.made (.ok m)) :=
        congrArg Prod.snd (Option.some.inj happens)
      cases call with
      | createExtruded n e =>
          cases hm : s.meshIn slot with
          | some m' =>
              rw [hm] at happens
              cases happens
              cases wanted
              exact ⟨⟨name, slot, .reading⟩, by simp [frames], rfl, .inr hm⟩
          | none =>
              rw [hm] at happens
              cases happens
      | _ => cases happens
  | listing call rest found =>
      cases rest with
      | nil =>
          have happens : afterListing call found = .answered (.made (.ok m)) :=
            congrArg Prod.snd (Option.some.inj happens)
          cases call <;> cases happens
      | cons e rest => cases happens
  | emptying slot => cases happens
  | requesting n maker p =>
      obtain rfl : n = name := Option.some.inj (h.symm.trans wanted)
      cases p with
      | looking slot =>
          simp only [Activity.step, advance] at happens
          split at happens
          · next m' hm =>
              cases happens
              exact ⟨⟨n, slot, .visiting⟩, by simp [frames, Progress.frames], rfl, .inr hm⟩
          · cases happens
      | leaving slot m' =>
          cases happens
          exact ⟨⟨n, slot, .leaving m⟩, by simp [frames, Progress.frames], rfl, .inl rfl⟩
      | waiting slot | checking slot | confirming slot | discarding slot e | trying slot e
      | inspecting slot e =>
          simp only [Activity.step, advance] at happens
          split at happens <;> cases happens
      | making slot script =>
          cases script with
          | finish result => cases result <;> cases happens
          | call request next => cases happens
      | _ => cases happens
  | answered reply => cases happens

/-- A thread goes on with a loader run, turns to a call of one, or goes on with its call. -/
theorem Thread.step_cases {t t' : Thread α} (happens : t.step s = some (s', t')) :
    (∃ p reply, t'.now = Thread.resume p reply) ∨ (∃ request, t'.now = .ready request) ∨
      t.now.step s = some (s', t'.now) := by
  unfold Thread.step at happens
  split at happens
  · cases happens
  · next reply p outer _ _ =>
      cases happens
      exact .inl ⟨p, reply, rfl⟩
  · next request next _ =>
      cases happens
      exact .inr (.inl ⟨request, rfl⟩)
  · obtain ⟨⟨u, now⟩, hstep, e⟩ := Option.map_eq_some_iff.mp happens
    cases e
    exact .inr (.inr hstep)

theorem Thread.step_of_answered {t t' : Thread α} {reply : Reply α}
    (happens : t.step s = some (s', t')) (answered : t'.now = .answered reply) :
    t.now.step s = some (s', .answered reply) := by
  obtain ⟨p, r, e⟩ | ⟨request, e⟩ | hstep := Thread.step_cases happens
  · cases answered.symm.trans e
  · cases answered.symm.trans e
  · exact answered ▸ hstep

end Answers

namespace Chronicle

/-- Meshes that have been answered for a name are still there. -/
structure Kept (name : String) (r : Chronicle α) : Prop where
  faithful : Faithful name r.shared.store r.shared.frames
  answered {a : Asked α} {m : Handle α} : (a, .made (.ok m)) ∈ r.answers →
    a.call.wanted? = some name → r.shared.store.get name = some m

theorem kept_start (name : String) (s : Store α) : Kept name (start s) where
  faithful f hf := by simp [start, SharedStore.frames] at hf
  answered h := by simp [start] at h

variable [Scalar α] {allowed : SharedStore α → Call α → Bool} {r r' : Chronicle α} {event : Event α}
  {name : String}

theorem Kept.step (h : r.Kept name) (hr : r.Coherent) (hstep : r.step allowed event = some r')
    (spares : r.shared.Spares event name) : r'.Kept name := by
  have happens := (happens_of_step hstep).1
  refine ⟨hr.orderly.faithful happens spares h.faithful, fun {a m} hanswer wanted => ?_⟩
  refine hr.orderly.get_kept happens spares ?_
  cases follows_of_step hstep with
  | @advance i t t' store thread begins moves =>
      obtain hanswer | hanswer := List.mem_append.mp hanswer
      · exact h.answered hanswer wanted
      · obtain ⟨hnow, hhead⟩ := Activity.mem_answers hanswer
        obtain ⟨b, rest, hasked, hserves, -⟩ := hr.serves thread
        obtain rfl : b = a := by simpa [hasked] using hhead
        obtain ⟨f, hf, hname, hm⟩ := Activity.exists_frame_of_ok hserves wanted
          (Thread.step_of_answered moves hnow)
        have hmem := SharedStore.mem_frames thread hf
        -- the slot is that of the name
        have refers : r.shared.store.slotOf? name = some f.slot := by
          refine h.faithful f hmem hname (hm.imp (fun e => ?_) fun e => ?_)
          · rw [e]
            rfl
          · rw [e]
            rfl
        rw [Store.get_of_slotOf? refers]
        exact hm.elim (fun e => (hr.orderly.fits f hmem).full e (hname ▸ refers)) id
  | _ => exact h.answered hanswer wanted

/-- A call that has found the slot of a mesh keeps it, for the mesh has been answered. -/
theorem Kept.refers_kept (kept : r.Kept name) (hr : r.Coherent)
    (happens : r.shared.step event = some r'.shared) (spares : r.shared.Spares event name)
    {slot n : Nat} {a : Asked α} {m : Handle α} (hanswer : (a, .made (.ok m)) ∈ r.answers.take n)
    (wanted : a.call.wanted? = some name) (refers : r.shared.store.slotOf? name = some slot) :
    r'.shared.store.slotOf? name = some slot := by
  have hget := kept.answered (List.mem_of_mem_take hanswer) wanted
  rw [Store.get_of_slotOf? refers] at hget
  exact (hr.orderly.keeps happens spares refers hget).1

end Chronicle

end TriMesh
