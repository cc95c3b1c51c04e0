import TriMesh.Proofs.RequestFrames

/-! # Who has which slot

What is true of a store and of every slot that its threads have got hold of, whatever calls come in
whatever order (`Move.hosts`): removals, clearing and calls made by loaders included.

* **Locks.** The writer lock of a slot is held by the one frame that holds it, and is free if there is
  none (`Hosts.held`).
* **Frames.** A frame knows what it has seen under the lock: an empty slot stays empty until the frame
  fills it, a slot that the name has lost stays lost, and a mesh that the frame is about to answer is in
  its slot for as long as the name refers to it (`Fits`).
* **Empty slots.** A name that refers to an empty slot has a call that will see to it
  (`Hosts.attended`). Once all calls have ended there is no such name. -/

namespace TriMesh

namespace Store

variable {α : Type} {s : Store α} {f : Frame α} {F : List (Frame α)} {E : List Nat} {name : String}
  {slot : Nat}

/-- What a frame can rely on. -/
structure Fits (s : Store α) (f : Frame α) : Prop where
  lt : f.slot < s.slots.size
  named {name : String} : s.slotOf? name = some f.slot → name = f.name
  vacant : f.stage.isVacant = true → s.meshIn f.slot = none
  lost : f.stage = .retreating → s.slotOf? f.name ≠ some f.slot
  full {h : Handle α} : f.stage = .leaving h → s.slotOf? f.name = some f.slot →
    s.meshIn f.slot = some h

/-- The frames of all calls under way, and the slots that removals are about to empty. -/
structure Hosts (s : Store α) (F : List (Frame α)) (E : List Nat) : Prop extends s.Sound where
  fits : ∀ f ∈ F, s.Fits f
  same : ∀ f ∈ F, ∀ g ∈ F, f.slot = g.slot → f.name = g.name
  held (slot : Nat) : F.countP (·.holds slot) = (s.isHeld slot).toNat
  attended {name : String} {slot : Nat} : s.slotOf? name = some slot → s.meshIn slot = none →
    ∃ f ∈ F, f.slot = slot ∧ f.stage.attends = true
  unreferenced : ∀ slot ∈ E, slot < s.slots.size ∧ ∀ name, s.slotOf? name ≠ some slot
  nodup_emptied : E.Nodup

namespace Hosts

theorem perm {F' : List (Frame α)} {E' : List Nat} (h : s.Hosts F E) (hF : F.Perm F')
    (hE : E.Perm E') : s.Hosts F' E' where
  toSound := h.toSound
  fits f hf := h.fits f (hF.mem_iff.mpr hf)
  same f hf g hg := h.same f (hF.mem_iff.mpr hf) g (hF.mem_iff.mpr hg)
  held i := hF.countP_eq _ ▸ h.held i
  attended hn hm := by
    obtain ⟨f, hf, hslot⟩ := h.attended hn hm
    exact ⟨f, hF.mem_iff.mp hf, hslot⟩
  unreferenced i hi := h.unreferenced i (hE.mem_iff.mpr hi)
  nodup_emptied := hE.nodup_iff.mp h.nodup_emptied

/-! ### One holder -/

theorem not_holds (h : s.Hosts (f :: F) E) (hf : f.stage.holds = true) :
    ∀ g ∈ F, g.slot = f.slot → g.stage.holds = false := by
  have hcount := h.held f.slot
  have hle := Bool.toNat_le (s.isHeld f.slot)
  rw [List.countP_cons_of_pos (by simp [Frame.holds, hf])] at hcount
  have hzero : F.countP (·.holds f.slot) = 0 := by omega
  intro g hg hslot
  have := List.countP_eq_zero.mp hzero g hg
  simpa [Frame.holds, hslot] using this

theorem eq_of_holds (h : s.Hosts F E) {g : Frame α} (hf : f ∈ F) (hg : g ∈ F)
    (hfh : f.stage.holds = true) (hgh : g.stage.holds = true) (e : g.slot = f.slot) : g = f := by
  obtain ⟨l, l', rfl⟩ := List.append_of_mem hf
  have hfirst := h.perm List.perm_middle (.refl _)
  obtain rfl | hg := List.mem_cons.mp (List.perm_middle.mem_iff.mp hg)
  · rfl
  · rw [hfirst.not_holds hfh g hg e] at hgh
    cases hgh

theorem isHeld (h : s.Hosts F E) (hf : f ∈ F) (hholds : f.stage.holds = true) :
    s.isHeld f.slot = true := by
  have hpos : 0 < F.countP (·.holds f.slot) :=
    List.countP_pos_iff.mpr ⟨f, hf, by simp [Frame.holds, hholds]⟩
  rw [h.held f.slot] at hpos
  cases hb : s.isHeld f.slot with
  | false =>
      rw [hb] at hpos
      exact absurd hpos (Nat.lt_irrefl 0)
  | true => rfl

theorem exists_holder (h : s.Hosts F E) (hb : s.isHeld slot = true) :
    ∃ f ∈ F, f.slot = slot ∧ f.stage.holds = true := by
  have := h.held slot
  have hpos : 0 < F.countP (·.holds slot) := by
    rw [this, hb]
    decide
  obtain ⟨f, hf, hholds⟩ := List.countP_pos_iff.mp hpos
  exact ⟨f, hf, by simpa [Frame.holds] using hholds⟩

end Hosts

/-! ### What other threads do -/

/-- A frame is not disturbed where its slot keeps its mesh and no name comes to refer to it. -/
theorem Fits.of_kept {s' : Store α} (h : s.Fits f) (size : s.slots.size ≤ s'.slots.size)
    (refers : ∀ name, s'.slotOf? name = some f.slot → s.slotOf? name = some f.slot)
    (mesh : s'.meshIn f.slot = s.meshIn f.slot) : s'.Fits f where
  lt := Nat.lt_of_lt_of_le h.lt size
  named hn := h.named (refers _ hn)
  vacant hv := mesh.trans (h.vacant hv)
  lost hl hn := h.lost hl (refers _ hn)
  full hf hn := mesh.trans (h.full hf (refers _ hn))

theorem Fits.takeOut (h : s.Fits f) (unreferenced : ∀ name, s.slotOf? name ≠ some slot) :
    (s.takeOut slot).2.Fits f where
  lt := by simpa using h.lt
  named hn := h.named (by simpa using hn)
  vacant hv := by simp [h.vacant hv]
  lost hl hn := h.lost hl (by simpa using hn)
  full hf hn := by
    rw [slotOf?_takeOut] at hn
    have hne : f.slot ≠ slot := fun e => unreferenced f.name (e ▸ hn)
    simpa [hne] using h.full hf hn

/-- A frame that does not go on from what it has seen under the lock has nothing to lose. -/
theorem Fits.of_not_relies (hst : f.stage.relies = false) (lt : f.slot < s.slots.size)
    (named : ∀ {name}, s.slotOf? name = some f.slot → name = f.name) : s.Fits f where
  lt := lt
  named := named
  vacant hv := by
    rw [Stage.relies_of_isVacant hv] at hst
    cases hst
  lost e := by
    rw [e] at hst
    cases hst
  full e := by
    rw [e] at hst
    cases hst

namespace Hosts

/-! ### Frames that come, change and go -/

theorem of_views {s' : Store α} (h : s.Hosts F E) (sound : s'.Sound)
    (size : s.slots.size ≤ s'.slots.size) (refers : ∀ name, s'.slotOf? name = s.slotOf? name)
    (mesh : ∀ i, s'.meshIn i = s.meshIn i) (held : ∀ i, s'.isHeld i = s.isHeld i) :
    s'.Hosts F E where
  toSound := sound
  fits f hf := (h.fits f hf).of_kept size (fun n hn => refers n ▸ hn) (mesh f.slot)
  same := h.same
  held i := (held i).symm ▸ h.held i
  attended hn hm := h.attended (refers _ ▸ hn) (mesh _ ▸ hm)
  unreferenced i hi := by
    obtain ⟨hlt, hn⟩ := h.unreferenced i hi
    exact ⟨Nat.lt_of_lt_of_le hlt size, fun n => refers n ▸ hn n⟩
  nodup_emptied := h.nodup_emptied

theorem of_table {s' : Store α} (h : s.Hosts F E) (table : s'.table = s.table)
    (slots : s'.slots = s.slots) : s'.Hosts F E :=
  h.of_views (h.toSound.of_table table (Nat.le_of_eq (by rw [slots]))) (Nat.le_of_eq (by rw [slots]))
    (fun _ => by simp [slotOf?, table]) (fun _ => by simp [meshIn, slots])
    fun _ => by simp [Store.isHeld, slots]

/-- A call gets hold of the slot of its name. -/
theorem cons {st : Stage α} (h : s.Hosts F E) (refers : s.slotOf? name = some slot)
    (hst : st.holds = false) : s.Hosts (⟨name, slot, st⟩ :: F) E where
  toSound := h.toSound
  fits := List.forall_mem_cons.mpr
    ⟨.of_not_relies (Stage.relies_eq_false hst) (h.lt refers) fun hn => h.inj hn refers, h.fits⟩
  same := by
    have hname : ∀ g ∈ F, g.slot = slot → g.name = name := fun g hg e =>
      ((h.fits g hg).named (e ▸ refers)).symm
    refine List.forall_mem_cons.mpr ⟨List.forall_mem_cons.mpr ⟨fun _ => rfl, ?_⟩, fun f hf => ?_⟩
    · exact fun g hg e => (hname g hg e.symm).symm
    · exact List.forall_mem_cons.mpr ⟨hname f hf, h.same f hf⟩
  held i := by
    rw [List.countP_cons_of_neg (by simp [Frame.holds, hst])]
    exact h.held i
  attended hn hm := by
    obtain ⟨f, hf, hslot⟩ := h.attended hn hm
    exact ⟨f, List.mem_cons_of_mem _ hf, hslot⟩
  unreferenced := h.unreferenced
  nodup_emptied := h.nodup_emptied

/-- A call lets go of its slot, which has its mesh, or another call that sees to it. -/
theorem drop (h : s.Hosts (f :: F) E) (hst : f.stage.holds = false)
    (left : f.stage.attends = true → s.slotOf? f.name = some f.slot → s.meshIn f.slot = none →
      ∃ g ∈ F, g.slot = f.slot ∧ g.stage.attends = true) : s.Hosts F E where
  toSound := h.toSound
  fits g hg := h.fits g (List.mem_cons_of_mem _ hg)
  same g hg g' hg' := h.same g (List.mem_cons_of_mem _ hg) g' (List.mem_cons_of_mem _ hg')
  held i := by
    rw [← h.held i, List.countP_cons_of_neg (by simp [Frame.holds, hst])]
  attended {n i} hn hm := by
    obtain ⟨g, hg, rfl, ha⟩ := h.attended hn hm
    obtain rfl | hg := List.mem_cons.mp hg
    · exact left ha ((h.fits g (by simp)).named hn ▸ hn) hm
    · exact ⟨g, hg, rfl, ha⟩
  unreferenced := h.unreferenced
  nodup_emptied := h.nodup_emptied

/-- A call goes on with its slot and leaves the names alone. -/
theorem restage {s' : Store α} {st st' : Stage α} (h : s.Hosts (⟨name, slot, st⟩ :: F) E)
    (table : s'.table = s.table) (size : s'.slots.size = s.slots.size)
    (mesh : ∀ i, s'.meshIn i = none → s.meshIn i = none) (fits : s'.Fits ⟨name, slot, st'⟩)
    (others : ∀ g ∈ F, s'.Fits g) (attends : st'.attends = true)
    (held : ∀ i, (⟨name, slot, st'⟩ :: F).countP (·.holds i) = (s'.isHeld i).toNat) :
    s'.Hosts (⟨name, slot, st'⟩ :: F) E where
  toSound := h.toSound.of_table table (Nat.le_of_eq size.symm)
  fits := List.forall_mem_cons.mpr ⟨fits, others⟩
  same := by
    obtain ⟨hf, hF⟩ := List.forall_mem_cons.mp h.same
    refine List.forall_mem_cons.mpr ⟨?_, fun f hf' => ?_⟩
    · exact List.forall_mem_cons.mpr ⟨fun _ => rfl, (List.forall_mem_cons.mp hf).2⟩
    · exact List.forall_mem_cons.mpr (List.forall_mem_cons.mp (hF f hf'))
  held := held
  attended {n i} hn hm := by
    obtain ⟨g, hg, rfl, ha⟩ := h.attended (by simpa [slotOf?, table] using hn) (mesh i hm)
    obtain rfl | hg := List.mem_cons.mp hg
    · exact ⟨_, List.mem_cons_self .., rfl, attends⟩
    · exact ⟨g, List.mem_cons_of_mem _ hg, rfl, ha⟩
  unreferenced i hi := by
    obtain ⟨hlt, hn⟩ := h.unreferenced i hi
    exact ⟨size ▸ hlt, fun n => by simpa [slotOf?, table] using hn n⟩
  nodup_emptied := h.nodup_emptied

/-! ### Sections -/

theorem take (h : s.Hosts F E) (name : String) :
    (s.slotFor name).1.Hosts (⟨name, (s.slotFor name).2, .visiting⟩ :: F) E := by
  cases hn : s.slotOf? name with
  | some slot =>
      rw [slotFor_of_some hn]
      exact h.cons hn rfl
  | none =>
      have hslot : (s.slotFor name).2 = s.slots.size := by simp [slotFor_of_none hn]
      have sound := h.toSound.slotFor name
      have hrefers : (s.slotFor name).1.slotOf? name = some (s.slotFor name).2 := by simp
      -- nobody can have a slot that was not there
      have hold : ∀ {n i}, i < s.slots.size → (s.slotFor name).1.slotOf? n = some i →
          s.slotOf? n = some i := by
        intro n i hi hni
        rw [slotOf?_slotFor] at hni
        split at hni
        · cases hni
          omega
        · exact hni
      have hne : ∀ g ∈ F, g.slot ≠ (s.slotFor name).2 := fun g hg e => by
        have := (h.fits g hg).lt
        omega
      refine ⟨sound, ?_, ?_, fun i => ?_, ?_, fun i hi => ?_, h.nodup_emptied⟩
      · refine List.forall_mem_cons.mpr ⟨?_, fun g hg => (h.fits g hg).of_kept
          (size_le_slotFor s name) (fun _ => hold (h.fits g hg).lt) (by simp)⟩
        exact .of_not_relies rfl (h.toSound.slotFor_lt name) fun hm => sound.inj hm hrefers
      · refine List.forall_mem_cons.mpr ⟨List.forall_mem_cons.mpr ⟨fun _ => rfl, ?_⟩, fun f hf => ?_⟩
        · exact fun g hg e => absurd e.symm (hne g hg)
        · exact List.forall_mem_cons.mpr ⟨fun e => absurd e (hne f hf), h.same f hf⟩
      · rw [List.countP_cons_of_neg (by simp [Frame.holds, Stage.holds]), h.held, isHeld_slotFor]
      · intro n i hni hm
        by_cases e : i = (s.slotFor name).2
        · exact ⟨_, List.mem_cons_self .., e.symm, rfl⟩
        · have hlt : i < s.slots.size := by
            have := sound.lt hni
            simp only [slotFor_of_none hn, Array.size_push] at this e
            omega
          obtain ⟨g, hg, hgi⟩ := h.attended (hold hlt hni) (by simpa using hm)
          exact ⟨g, List.mem_cons_of_mem _ hg, hgi⟩
      · obtain ⟨hlt, hi⟩ := h.unreferenced i hi
        exact ⟨Nat.lt_of_lt_of_le hlt (size_le_slotFor s name), fun n hni => hi n (hold hlt hni)⟩

theorem lock {st st' : Stage α} (h : s.Hosts (⟨name, slot, st⟩ :: F) E) (locks : st.Locks st')
    (unheld : s.isHeld slot = false) : (s.lock slot).Hosts (⟨name, slot, st'⟩ :: F) E := by
  obtain ⟨hfit, hF⟩ := List.forall_mem_cons.mp h.fits
  obtain ⟨hst, hst', hrelies, hattends⟩ : st.holds = false ∧ st'.holds = true ∧ st'.relies = false ∧
      st'.attends = true := by
    cases locks <;> exact ⟨rfl, rfl, rfl, rfl⟩
  have hkept : ∀ {f}, s.Fits f → (s.lock slot).Fits f := fun hf =>
    hf.of_kept (by simp) (fun _ hn => by simpa using hn) (by simp)
  refine h.restage rfl (by simp) (fun i hm => by simpa using hm)
    (hkept (.of_not_relies hrelies hfit.lt hfit.named)) (fun g hg => hkept (hF g hg)) hattends
    fun i => ?_
  have hcount := h.held i
  rw [List.countP_cons_of_neg (by simp [Frame.holds, hst])] at hcount
  rw [isHeld_lock _ _ hfit.lt, List.countP_cons, hcount]
  by_cases e : i = slot
  · simp [e, unheld, Frame.holds, hst']
  · simp [e, Ne.symm e, Frame.holds]

theorem publish (h : s.Hosts (⟨name, slot, .publishing⟩ :: F) E) (mesh : Mesh α) :
    (s.publish slot mesh).1.Hosts (⟨name, slot, .leaving ⟨s.published, mesh⟩⟩ :: F) E := by
  obtain ⟨hfit, hF⟩ := List.forall_mem_cons.mp h.fits
  have hlt : slot < s.slots.size := hfit.lt
  refine h.restage rfl (by simp) (fun i hm => ?_) ?_ (fun g hg => ?_) rfl fun i => ?_
  · rw [meshIn_publish _ _ _ hlt] at hm
    split at hm
    · cases hm
    · exact hm
  · refine ⟨by simpa using hfit.lt, fun hn => hfit.named (by simpa using hn),
      fun hv => by simp [Stage.isVacant] at hv, fun e => (by cases e), fun e _ => ?_⟩
    cases e
    simp [meshIn_publish _ _ _ hlt]
  · by_cases e : g.slot = slot
    · -- the others wait for the lock
      exact .of_not_relies (Stage.relies_eq_false (h.not_holds rfl g hg e))
        (by simpa using (hF g hg).lt) fun hn => (hF g hg).named (by simpa using hn)
    · exact (hF g hg).of_kept (by simp) (fun _ hn => by simpa using hn)
        (by simp [meshIn_publish _ _ _ hlt, e])
  · rw [isHeld_publish, ← h.held i, List.countP_cons, List.countP_cons]
    rfl

/-- The lock is given back, and the slot not yet let go. -/
theorem unlock {st : Stage α} (h : s.Hosts (⟨name, slot, st⟩ :: F) E) (st' : Stage α)
    (hst : st.holds = true) (hst' : st'.holds = false) (attends : st'.attends = true) :
    (s.unlock slot).Hosts (⟨name, slot, st'⟩ :: F) E := by
  obtain ⟨hfit, hF⟩ := List.forall_mem_cons.mp h.fits
  refine h.restage rfl (by simp) (fun i hm => by simpa using hm) ?_ (fun g hg => ?_) attends
    fun i => ?_
  · exact .of_not_relies (Stage.relies_eq_false hst') (by simpa using hfit.lt)
      fun hn => hfit.named (by simpa using hn)
  · exact (hF g hg).of_kept (by simp) (fun _ hn => by simpa using hn) (by simp)
  · rw [List.countP_cons_of_neg (by simp [Frame.holds, hst']), isHeld_unlock]
    by_cases e : i = slot
    · subst e
      refine (List.countP_eq_zero.mpr fun g hg => ?_).trans (by simp)
      have := h.not_holds hst g hg
      simp_all [Frame.holds]
    · rw [if_neg e, ← h.held i, List.countP_cons_of_neg (by simp [Frame.holds, Ne.symm e])]

theorem forget (h : s.Hosts F E) (name : String) : (s.forget name).Hosts F E := by
  have hsub : ∀ {n i}, (s.forget name).slotOf? n = some i → s.slotOf? n = some i := by
    intro n i hn
    rw [slotOf?_forget] at hn
    split at hn
    · cases hn
    · exact hn
  exact {
    toSound := h.toSound.forget name
    fits := fun f hf => (h.fits f hf).of_kept (by simp) (fun _ => hsub) (by simp)
    same := h.same
    held := h.held
    attended := fun hn hm => h.attended (hsub hn) hm
    unreferenced := fun i hi => ⟨(h.unreferenced i hi).1, fun n hn => (h.unreferenced i hi).2 n (hsub hn)⟩
    nodup_emptied := h.nodup_emptied }

/-- A name is taken out, and its slot is to be emptied. -/
theorem remove (h : s.Hosts F E) (refers : s.slotOf? name = some slot) :
    (s.forget name).Hosts F (slot :: E) := by
  have hf := h.forget name
  refine { hf with unreferenced := ?_, nodup_emptied := ?_ }
  · refine List.forall_mem_cons.mpr ⟨⟨h.lt refers, fun n hn => ?_⟩, hf.unreferenced⟩
    rw [slotOf?_forget] at hn
    split at hn
    · cases hn
    · next hne => exact hne (h.inj hn refers)
  · exact List.nodup_cons.mpr ⟨fun hmem => (h.unreferenced slot hmem).2 name refers, h.nodup_emptied⟩

theorem takeOut (h : s.Hosts F (slot :: E)) : (s.takeOut slot).2.Hosts F E := by
  obtain ⟨⟨hlt, hslot⟩, hE⟩ := List.forall_mem_cons.mp h.unreferenced
  refine ⟨h.toSound.of_table rfl (by simp), fun f hf => (h.fits f hf).takeOut hslot, h.same,
    fun i => by simpa using h.held i, fun {n i} hn hm => ?_, ?_, (List.nodup_cons.mp h.nodup_emptied).2⟩
  · rw [slotOf?_takeOut] at hn
    have hne : i ≠ slot := fun e => hslot n (e ▸ hn)
    exact h.attended hn (by simpa [hne] using hm)
  · simpa using hE

theorem clear (h : s.Hosts F E) : s.clear.Hosts F E where
  toSound := Sound.clear
  fits f hf := (h.fits f hf).of_kept (by simp) (fun _ hn => by simp at hn) (by simp)
  same := h.same
  held := h.held
  attended hn := by simp at hn
  unreferenced i hi := ⟨(h.unreferenced i hi).1, fun n => by simp⟩
  nodup_emptied := h.nodup_emptied

/-- A slot that a call is done with and that is still empty has another call that sees to it. -/
theorem done {st : Stage α} (h : s.Hosts (⟨name, slot, st⟩ :: F) E) (ends : st.Ends s name slot) :
    s.Hosts F E := by
  refine h.drop (by cases ends <;> rfl) fun ha hn hm => ?_
  cases ends with
  | read => cases ha
  | find full | keep full => simp [hm] at full
  | pass lost => exact absurd hn lost
  | yield held =>
      obtain ⟨g, hg, hslot, hholds⟩ := h.exists_holder held
      obtain rfl | hg := List.mem_cons.mp hg
      · cases hholds
      · exact ⟨g, hg, hslot, Stage.attends_of_holds hholds⟩

/-- A name is taken out by the call that has seen to its slot. -/
theorem dropping (h : s.Hosts (⟨name, slot, .dropping⟩ :: F) E) : (s.forget name).Hosts F E :=
  (h.forget name).drop rfl fun _ hr => by simp at hr

theorem next {free : Prop} {s' : Store α} {st st' : Stage α} (h : s.Hosts (⟨name, slot, st⟩ :: F) E)
    (next : st.Next free s name slot st') (table : s'.table = s.table) (slots : s'.slots = s.slots) :
    s'.Hosts (⟨name, slot, st'⟩ :: F) E := by
  obtain ⟨hfit, hF⟩ := List.forall_mem_cons.mp h.fits
  have hvacant : st.isVacant = true → s.meshIn slot = none := hfit.vacant
  have hfit' : s.Fits ⟨name, slot, st'⟩ := by
    refine ⟨hfit.lt, hfit.named, fun hv => ?_, fun e => ?_, fun e _ => ?_⟩
    · cases next with
      | confirm vacant => exact vacant
      | start | make | publish | fail => exact hvacant rfl
      | wait | recheck | retreat | close | inspect => cases hv
    · cases next with
      | retreat _ lost => exact lost
      | _ => cases e
    · cases next with
      | recheck full =>
          cases e
          exact full
      | _ => cases e
  have hstage : st'.holds = st.holds ∧ st'.attends = true := by cases next <;> exact ⟨rfl, rfl⟩
  refine (h.restage rfl rfl (fun _ hm => hm) hfit' hF hstage.2 fun i => ?_).of_table table slots
  rw [← h.held i, List.countP_cons, List.countP_cons]
  simp [Frame.holds, hstage.1]

end Hosts

end Store

/-! ### Moves -/

/-- What all threads have of a store is kept by a move of one of them. -/
theorem Move.hosts {α : Type} {ok : Call α → Prop} {free : Prop} {v v' : View α}
    (h : Move ok free v v') {F : List (Frame α)} {E : List Nat}
    (hosts : v.store.Hosts (v.frames ++ F) (v.emptied ++ E)) :
    v'.store.Hosts (v'.frames ++ F) (v'.emptied ++ E) := by
  cases h with
  | still table slots => exact hosts.of_table table slots
  | look refers => exact hosts.cons refers rfl
  | done ends => exact hosts.done ends
  | take => exact hosts.take _
  | lock locks unheld => exact hosts.lock locks unheld
  | next next table slots => exact hosts.next next table slots
  | publish => exact hosts.publish _
  | @retreat s name slot =>
      have hfit : s.Fits ⟨name, slot, .retreating⟩ := hosts.fits _ (by simp)
      exact (hosts.unlock .visiting rfl rfl rfl).drop rfl fun _ hn _ => absurd hn (hfit.lost rfl)
  | @leave s name slot m =>
      have hfit : s.Fits ⟨name, slot, .leaving m⟩ := hosts.fits _ (by simp)
      refine (hosts.unlock .visiting rfl rfl rfl).drop rfl fun _ hn hm => ?_
      rw [Store.meshIn_unlock, hfit.full rfl hn] at hm
      cases hm
  | unlock unlocks => cases unlocks <;> exact hosts.unlock _ rfl rfl rfl
  | drop => exact hosts.dropping
  | forget _ _ refers => exact hosts.remove refers
  | empty => exact hosts.takeOut
  | clear => exact hosts.clear

end TriMesh
