import TriMesh.Proofs.StoreMeshes

/-! # Loaders that call the store

A loader may call the store before it comes to its result, and the loaders of these calls may do so in
turn.  Meanwhile its path has a slot that is empty and held.

* `Throughout P` says that `P` holds of a call and of every call that is made in the course of it, each
  on the store on which it is made and with the paths that are being loaded at that moment.
* `Spares chain` is all that is asked of a call in a loader: it does not clear the store, and it does
  not take out or ask for a mesh that is being loaded further out.
* Two stores that are `Alike` give the same answers to such a call and stay alike, although one of them
  may have more paths that are being loaded (`answer_alike`).  Such a path is thus invisible, and a
  nested load is as good as its calls, followed by a load that makes none (`load_of_calls`). -/

namespace TriMesh

/-- A call that leaves alone what is being loaded. -/
def Call.Spares {α : Type} (chain : List String) : Call α → Prop
  | .clear => False
  | .remove name | .getOrCreate name _ | .createExtruded name _ | .load name => name ∉ chain
  | .addMesh mesh => mesh.name ∉ chain
  | .get _ | .contains _ | .names | .size | .register _ _ => True

/-- The calls that a script makes, each with the store on which it is made. -/
def Script.trace {α : Type} (answer : Store α → Call α → Outcome α (Reply α)) :
    Script α → Store α → List (Store α × Call α)
  | .finish _, _ => []
  | .call request next, s => (s, request) :: match answer s request with
    | .done reply t => (next reply).trace answer t
    | .stalled _ => []

/-- A loader to which it makes no difference how often it has run. -/
def Loader.IgnoresCount {α : Type} (loader : Loader α) : Prop :=
  ∀ m n path, loader m path = loader n path

namespace Store

variable {α : Type}

/-- The same meshes and loaders, and the same runs of generators. Only loaders to which it makes no
difference may have run a different number of times. -/
structure Alike (s t : Store α) : Prop where
  get (name : String) : s.get name = t.get name
  rest : s.rest = t.rest
  generated : s.generated = t.generated
  runs (id : Nat) : s.runs id = t.runs id ∨
    id < s.registered ∧ ∀ format r, s.loaders format = some r → r.id = id → r.loader.IgnoresCount

theorem runs_of_journal {s t : Store α} (h : t.journal = s.journal) (id : Nat) :
    t.runs id = s.runs id := by
  simp [runs, h]

theorem runs_of_journal_append {s t : Store α} {more : Array LoaderRun}
    (h : t.journal = s.journal ++ more) (id : Nat) :
    t.runs id = s.runs id + (more.filter (·.registration == id)).size := by
  simp [runs, h]

theorem runs_begun [Scalar α] (s : Store α) {name : String} {maker : Maker α} (id : Nat) :
    (s.begun name maker).2.runs id = s.runs id + (maker.loads.filter (·.registration == id)).size :=
  runs_of_journal_append (journal_begun s name maker) id

theorem Alike.refl (s : Store α) : s.Alike s := ⟨fun _ => rfl, rfl, rfl, fun _ => .inl rfl⟩

theorem Alike.loaders {s t : Store α} (h : s.Alike t) : s.loaders = t.loaders :=
  loaders_of_rest h.rest

theorem Alike.script {s t : Store α} (h : s.Alike t) {format : Format} {r : Registration α}
    (hr : s.loaders format = some r) (path : String) :
    r.loader (s.runs r.id) path = r.loader (t.runs r.id) path := by
  obtain e | ⟨-, hc⟩ := h.runs r.id
  · rw [e]
  · exact hc format r hr rfl _ _ path

theorem Alike.dispatch {s t : Store α} (h : s.Alike t) (path : String) :
    s.dispatch path = t.dispatch path := by
  simp only [Store.dispatch, h.loaders]

theorem Alike.making? {s t : Store α} (h : s.Alike t) (c : Call α) : s.making? c = t.making? c := by
  cases c with
  | load path => simp only [Store.making?, h.dispatch]
  | _ => rfl

theorem Alike.names {s t : Store α} (h : s.Alike t) (hs : s.Sound) (ht : t.Sound) :
    s.names = t.names := names_eq_of_get ht hs h.get

/-- What is done to both stores and adds equally to the runs keeps them alike. -/
theorem Alike.of_changes {s t s' t' : Store α} (h : s.Alike t)
    (get : ∀ name, s'.get name = t'.get name) (rest : s'.rest = t'.rest)
    (generated : s'.generated = t'.generated) (loaders : s'.loaders = s.loaders)
    (registered : s'.registered = s.registered)
    (runs : ∀ id, ∃ n, s'.runs id = s.runs id + n ∧ t'.runs id = t.runs id + n) : s'.Alike t' where
  get := get
  rest := rest
  generated := generated
  runs id := by
    obtain ⟨n, hs, ht⟩ := runs id
    rw [hs, ht, loaders, registered]
    exact (h.runs id).imp (fun e => by rw [e]) fun hr => hr

theorem Alike.remove {s t : Store α} (h : s.Alike t) (hs : s.Sound) (ht : t.Sound) (name : String) :
    (s.remove name).2.Alike (t.remove name).2 :=
  h.of_changes (fun other => by rw [hs.get_remove, ht.get_remove, h.get])
    (by rw [rest_remove, rest_remove, h.rest])
    (by rw [generated_remove, generated_remove, h.generated]) (loaders_of_rest (rest_remove s name))
    (registered_of_rest (rest_remove s name))
    fun id => ⟨0, runs_of_journal (journal_remove s name) id, runs_of_journal (journal_remove t name) id⟩

/-- A registration after the store has come apart from its twin is as good as one before. -/
theorem Alike.register {s t : Store α} (h : s.Alike t) (format : Format) (loader : Loader α) :
    (s.register format loader).Alike (t.register format loader) where
  get := h.get
  rest := by
    have := h.rest
    simp only [Store.rest, Store.register, Store.mk.injEq] at this ⊢
    simp [this]
  generated := h.generated
  runs id := by
    refine (h.runs id).imp_right ?_
    rintro ⟨hlt, hr⟩
    refine ⟨Nat.lt_succ_of_lt hlt, fun f r hf e => ?_⟩
    simp only [Store.register] at hf
    split at hf
    · -- the new registration has a number of its own
      cases hf
      exact absurd e (Nat.ne_of_gt hlt)
    · exact hr f r hf e

/-- What concluding answers and stores depends on the meshes and their number alone. -/
theorem conclude_congr {s t : Store α} {name : String} {i j : Nat}
    (result : Except MeshError (Mesh α)) (get : ∀ other, s.get other = t.get other)
    (published : s.published = t.published) (hs : s.Sound) (ht : t.Sound)
    (hi : s.slotOf? name = some i) (hj : t.slotOf? name = some j)
    (hmi : s.meshIn i = none) (hmj : t.meshIn j = none) :
    (s.conclude name i result).1 = (t.conclude name j result).1 ∧
      ∀ other, (s.conclude name i result).2.get other = (t.conclude name j result).2.get other := by
  cases result with
  | ok mesh =>
      refine ⟨by simp [conclude, published], fun other => ?_⟩
      rw [hs.get_conclude_ok hi, ht.get_conclude_ok hj, published, get]
  | error e =>
      refine ⟨rfl, fun other => ?_⟩
      rw [get_conclude_error hi hmi, get_conclude_error hj hmj, get]

theorem Alike.conclude {s t : Store α} (h : s.Alike t) {name : String} {i j : Nat}
    (result : Except MeshError (Mesh α)) (hs : s.Sound) (ht : t.Sound)
    (hi : s.slotOf? name = some i) (hj : t.slotOf? name = some j)
    (hmi : s.meshIn i = none) (hmj : t.meshIn j = none) :
    (s.conclude name i result).1 = (t.conclude name j result).1 ∧
      (s.conclude name i result).2.Alike (t.conclude name j result).2 := by
  have hpub := published_of_rest h.rest
  obtain ⟨hresult, hget⟩ := conclude_congr result h.get hpub hs ht hi hj hmi hmj
  have hrest : (s.conclude name i result).2.rest = (t.conclude name j result).2.rest := by
    cases result with
    | ok mesh => rw [rest_conclude_ok, rest_conclude_ok, h.rest, hpub]
    | error e => rw [rest_conclude_error, rest_conclude_error, h.rest]
  refine ⟨hresult, h.of_changes hget hrest (by rw [generated_conclude, generated_conclude, h.generated])
    (loaders_conclude result) (registered_conclude result) fun id => ⟨0, ?_, ?_⟩⟩
  · exact runs_of_journal (journal_conclude result) id
  · exact runs_of_journal (journal_conclude result) id

/-! ### Names that keep their slots -/

/-- The names still refer to what they referred to. -/
def Keeps (names : List String) (s t : Store α) : Prop := ∀ name ∈ names, t.slotOf? name = s.slotOf? name

theorem Keeps.refl (names : List String) (s : Store α) : Keeps names s s := fun _ _ => rfl

theorem Keeps.trans {names : List String} {s t u : Store α} (h : Keeps names s t)
    (h' : Keeps names t u) : Keeps names s u := fun name hn => (h' name hn).trans (h name hn)

theorem slotOf?_remove_of_ne (s : Store α) {name other : String} (h : other ≠ name) :
    (s.remove name).2.slotOf? other = s.slotOf? other := by
  cases hn : s.slotOf? name with
  | none => rw [remove_of_none hn]
  | some slot => simp [remove_of_some hn, h]

theorem slotOf?_conclude_of_ne {s : Store α} {name other : String} {slot : Nat}
    (result : Except MeshError (Mesh α)) (h : other ≠ name) :
    (s.conclude name slot result).2.slotOf? other = s.slotOf? other := by
  cases result <;> simp [conclude, slotOf?_discardEmpty, h]

theorem Keeps.remove (s : Store α) {names : List String} {name : String} (h : name ∉ names) :
    Keeps names s (s.remove name).2 := by
  intro other hother
  refine slotOf?_remove_of_ne s ?_
  rintro rfl
  exact h hother

/-- What two stores that are alike come to when the same is done to both. -/
structure Follows (chain : List String) (s t s' t' : Store α) : Prop where
  alike : s'.Alike t'
  left : Keeps chain s s'
  right : Keeps chain t t'

theorem Follows.refl {chain : List String} {s t : Store α} (h : s.Alike t) : Follows chain s t s t :=
  ⟨h, .refl chain s, .refl chain t⟩

theorem Follows.trans {chain : List String} {s t s' t' s'' t'' : Store α} (h : Follows chain s t s' t')
    (h' : Follows chain s' t' s'' t'') : Follows chain s t s'' t'' :=
  ⟨h'.alike, h.left.trans h'.left, h.right.trans h'.right⟩

theorem notMem_of_spares {chain : List String} {s : Store α} {c : Call α} {name : String}
    {maker : Maker α} (h : c.Spares chain) (making : s.making? c = some (name, maker)) :
    name ∉ chain := by
  cases c with
  | addMesh mesh | getOrCreate n spec | createExtruded n extrusion =>
      cases making
      exact h
  | load path =>
      simp only [making?, Option.map_eq_some_iff] at making
      obtain ⟨r, -, e⟩ := making
      cases e
      exact h
  | _ => cases making

/-- No query finds the path. -/
structure Unseen (path : String) (s : Store α) : Prop where
  get : s.get path = none
  contains : s.contains path = false
  names : path ∉ s.names
  size : s.size = (s.names.erase path).length

theorem Sound.unseen {s : Store α} (hs : s.Sound) {path : String} (h : s.get path = none) :
    Unseen path s := by
  have hnames : path ∉ s.names := by simp [hs.mem_names, h]
  exact ⟨h, by simp [contains, h], hnames, by rw [List.erase_of_not_mem hnames, size]⟩

variable [Scalar α]

/-- A name that is made anew in between takes nothing away from the others. -/
theorem Keeps.conclude {s t : Store α} {names : List String} {name : String} {maker : Maker α}
    (h : Keeps names (s.begun name maker).2 t) (hname : name ∉ names) (slot : Nat)
    (result : Except MeshError (Mesh α)) : Keeps names s (t.conclude name slot result).2 := by
  intro other hother
  have hne : other ≠ name := by
    rintro rfl
    exact hname hother
  rw [slotOf?_conclude_of_ne result hne, h other hother, slotOf?_begun, if_neg hne]

theorem Alike.begun {s t : Store α} (h : s.Alike t) {name : String} {maker : Maker α}
    (known : ∀ path r, maker = .file path r → ∃ format, s.loaders format = some r)
    (hs : s.slotOf? name = none) (ht : t.slotOf? name = none) :
    (s.begun name maker).1 = (t.begun name maker).1 ∧
      (s.begun name maker).2.Alike (t.begun name maker).2 := by
  have hrest : (s.begun name maker).2.rest = s.rest := rest_begun maker
  refine ⟨?_, h.of_changes (fun other => by rw [get_begun maker hs, get_begun maker ht, h.get])
    (by rw [rest_begun, rest_begun, h.rest]) (by rw [generated_begun, generated_begun, h.generated])
    (loaders_of_rest hrest) (registered_of_rest hrest) fun id => ⟨_, runs_begun s id, runs_begun t id⟩⟩
  cases maker with
  | finished mesh => rfl
  | generator spec =>
      have hruns : s.triangulations = t.triangulations := by simp only [triangulations, h.generated]
      rw [script_begun_generator, script_begun_generator, triangulate_of_rest h.rest, hruns]
  | file path r =>
      obtain ⟨format, hr⟩ := known path r rfl
      rw [script_begun_file, script_begun_file, h.script hr]

/-! ### Calls in the course of a call -/

/-- A property of a call and of all calls made in the course of it, nested at most `depth` deep. -/
def Throughout (P : List String → Store α → Call α → Prop) :
    Nat → List String → Store α → Call α → Prop
  | 0, _, _, _ => False
  | depth + 1, chain, s, c => P chain s c ∧
    ∀ path script t, s.loading? c = some (path, script, t) →
      ∀ u ∈ script.trace (answer depth) t, Throughout P depth (path :: chain) u.1 u.2

/-- No call touches what is being loaded. -/
abbrev Considerate : Nat → List String → Store α → Call α → Prop :=
  Throughout fun chain _ c => c.Spares chain

variable {chain : List String} {depth : Nat} {s : Store α} {c : Call α} {name : String}
  {maker : Maker α}

/-- The calls made while the mesh of a new name is being made. -/
theorem Throughout.begun {P : List String → Store α → Call α → Prop}
    (h : Throughout P (depth + 1) chain s c) (hs : s.Steady)
    (making : s.making? c = some (name, maker)) (hn : s.slotOf? name = none) :
    ∀ u ∈ (s.begun name maker).1.trace (answer depth) (s.begun name maker).2,
      Throughout P depth (name :: chain) u.1 u.2 := by
  cases maker with
  | finished mesh | generator spec => simp [Store.begun, beginMaking, Script.trace]
  | file path r =>
      obtain ⟨rfl, rfl, hd⟩ : c = .load path ∧ name = path ∧ s.dispatch path = .ok r := by
        cases c with
        | load p =>
            cases hd : s.dispatch p <;> simp_all [making?, Except.toOption]
            grind
        | _ => simp [making?] at making
      exact h.2 name _ _ (hs.loading?_eq_some_iff.mpr ⟨r, rfl, hd, hn, rfl⟩)

/-! ### The same calls on stores that are alike -/

/-- Considerate calls are answered, and alike on stores that are alike. -/
def AnswersAlike (depth : Nat) : Prop :=
  ∀ (chain : List String) (s t : Store α) (c : Call α), s.Resting chain → t.Resting chain →
    s.Alike t → s.Considerate depth chain c →
    ∃ reply s' t', s.answer depth c = .done reply s' ∧ t.answer depth c = .done reply t' ∧
      Follows chain s t s' t'

/-- A script of considerate calls comes to its result, and on a store that is alike it may as well be
taken apart into its calls. -/
theorem AnswersAlike.run (answers : AnswersAlike (α := α) depth) :
    ∀ (script : Script α) {s t : Store α}, s.Resting chain → t.Resting chain → s.Alike t →
    (∀ u ∈ script.trace (answer depth) s, Considerate depth chain u.1 u.2) →
    ∃ result s' t', script.run (answer depth) s = .done result s' ∧
      script.run (answer depth) t = .done result t' ∧ Follows chain s t s' t' ∧
      ∃ replies, t.answerAll depth ((script.trace (answer depth) s).map (·.2)) = .done replies t' ∧
        List.Forall₂ (fun u reply => ∃ v, u.1.answer depth u.2 = .done reply v)
          (script.trace (answer depth) s) replies
  | .finish result, s, t, _, _, h, _ =>
      ⟨result, s, t, rfl, rfl, .refl h, [], rfl, .nil⟩
  | .call request next, s, t, hs, ht, h, spares => by
      have hfirst := spares (s, request) (by simp [Script.trace])
      obtain ⟨reply, s₁, t₁, hs₁, ht₁, f₁⟩ := answers _ _ _ _ hs ht h hfirst
      obtain ⟨ss, es⟩ := answer_steady depth _ _ _ _ hs.toSteady hs₁
      obtain ⟨st, et⟩ := answer_steady depth _ _ _ _ ht.toSteady ht₁
      have htrace : (Script.call request next).trace (answer depth) s =
          (s, request) :: (next reply).trace (answer depth) s₁ := by
        simp [Script.trace, hs₁]
      obtain ⟨result, s₂, t₂, hs₂, ht₂, f₂, replies, hall, hreplies⟩ :=
        answers.run (next reply) (hs.evolve ss es) (ht.evolve st et) f₁.alike fun u hu =>
          spares u (htrace ▸ List.mem_cons_of_mem _ hu)
      refine ⟨result, s₂, t₂, ?_, ?_, f₁.trans f₂, reply :: replies, ?_, ?_⟩
      · simp [Script.run, hs₁, hs₂]
      · simp [Script.run, ht₁, ht₂]
      · simp [htrace, answerAll, ht₁, hall]
      · rw [htrace]
        exact .cons ⟨s₁, hs₁⟩ hreplies

/-- A name whose loader has run keeps its slot, still empty, if no call of the loader touched it. -/
theorem Steady.slot_of_run (hs : s.Steady) (hn : s.slotOf? name = none) {t : Store α}
    {script : Script α} {result : Except MeshError (Mesh α)}
    (run : script.run (answer depth) (s.begun name maker).2 = .done result t)
    (keeps : Keeps (name :: chain) (s.begun name maker).2 t) :
    t.Sound ∧ t.slotOf? name = some s.slots.size ∧ t.meshIn s.slots.size = none := by
  have hslot : (s.slotFor name).2 = s.slots.size := by simp [slotFor_of_none hn]
  obtain ⟨ht, ev⟩ := (answer_steady depth).run script (hs.begun maker hn) run
  refine ⟨ht.toSound, ?_, ev.meshIn_none ?_ ?_⟩
  · rw [keeps name (by simp), slotOf?_begun, if_pos rfl, hslot]
  · rw [hs.toSound.isHeld_begun, hslot, if_pos rfl]
  · rw [meshIn_begun, meshIn_of_size_le (Nat.le_refl _)]

theorem AnswersAlike.request (answers : AnswersAlike (α := α) depth) {t : Store α}
    (hs : s.Resting chain) (ht : t.Resting chain) (h : s.Alike t)
    (considerate : Considerate (depth + 1) chain s c) (making : s.making? c = some (name, maker)) :
    ∃ result s' t', s.request (Script.run (answer depth)) name maker = .done result s' ∧
      t.request (Script.run (answer depth)) name maker = .done result t' ∧ Follows chain s t s' t' := by
  have hname : name ∉ chain := notMem_of_spares considerate.1 making
  cases hg : s.get name with
  | some m =>
      exact ⟨.ok m, s, t, request_of_get _ _ hg, request_of_get _ _ (h.get name ▸ hg), .refl h⟩
  | none =>
      have hsn := hs.slotOf?_eq_none hname hg
      have htn := ht.slotOf?_eq_none hname (h.get name ▸ hg)
      have known : ∀ path r, maker = .file path r → ∃ format, s.loaders format = some r := by
        rintro path r rfl
        exact registered_of_making? making
      obtain ⟨hscript, halike⟩ := h.begun known hsn htn
      obtain ⟨result, s', t', hrs, hrt, f, -⟩ := answers.run _ (hs.begun maker hsn)
        (ht.begun maker htn) halike (considerate.begun hs.toSteady making hsn)
      obtain ⟨sound, hsslot, hsmesh⟩ := hs.toSteady.slot_of_run hsn hrs f.left
      obtain ⟨tound, htslot, htmesh⟩ := ht.toSteady.slot_of_run htn hrt f.right
      obtain ⟨hresult, hconclude⟩ :=
        f.alike.conclude result sound tound hsslot htslot hsmesh htmesh
      have keeps : ∀ {u v : Store α}, Keeps (name :: chain) (u.begun name maker).2 v →
          Keeps chain u (v.conclude name u.slots.size result).2 := fun k =>
        Keeps.conclude (fun n hn => k n (List.mem_cons_of_mem _ hn)) hname _ result
      refine ⟨(s'.conclude name s.slots.size result).1, _, _, ?_, ?_, hconclude, keeps f.left,
        keeps f.right⟩
      · rw [request_of_absent _ _ hsn, hrs]
        rfl
      · rw [request_of_absent _ _ htn, ← hscript, hrt, hresult]
        rfl

/-- **Considerate calls cannot tell** which other paths are being loaded. -/
theorem answer_alike : ∀ depth : Nat, AnswersAlike (α := α) depth
  | 0, chain, s, t, c, _, _, _, h => h.elim
  | depth + 1, chain, s, t, c, hs, ht, h, considerate => by
      cases making : s.making? c with
      | some made =>
          obtain ⟨name, maker⟩ := made
          obtain ⟨result, s', t', hrs, hrt, f⟩ :=
            AnswersAlike.request (answer_alike depth) hs ht h considerate making
          refine ⟨.made result, s', t', ?_, ?_, f⟩
          · simp [answer_of_making? making, hrs]
          · simp [answer_of_making? (h.making? c ▸ making), hrt]
      | none =>
          have spares := considerate.1
          cases c with
          | get name => exact ⟨_, s, t, rfl, by simp [answer, h.get], .refl h⟩
          | contains name => exact ⟨_, s, t, rfl, by simp [answer, contains, h.get], .refl h⟩
          | names => exact ⟨_, s, t, rfl, by simp [answer, h.names hs.toSound ht.toSound], .refl h⟩
          | size => exact ⟨_, s, t, rfl, by simp [answer, size, h.names hs.toSound ht.toSound], .refl h⟩
          | remove name =>
              refine ⟨.stored (s.remove name).1, _, _, rfl, ?_, h.remove hs.toSound ht.toSound name,
                .remove s spares, .remove t spares⟩
              rw [remove_fst, h.get, ← remove_fst]
              rfl
          | clear => exact spares.elim
          | register format loader => exact ⟨_, _, _, rfl, rfl, h.register format loader, fun _ _ => rfl,
              fun _ _ => rfl⟩
          | load path =>
              cases hd : s.dispatch path with
              | ok r => simp [making?, hd, Except.toOption] at making
              | error e =>
                  exact ⟨.made (.error e), s, t, by simp [answer, hd],
                    by simp [answer, ← h.dispatch, hd], .refl h⟩
          | _ => cases making

/-! ### What is being loaded is invisible -/

theorem Considerate.get_eq_none (considerate : Considerate depth chain s c) (hs : s.Resting chain)
    {path : String} (hp : path ∈ chain) (h : s.get path = none) {t : Store α} {reply : Reply α}
    (done : s.answer depth c = .done reply t) : t.get path = none := by
  obtain ⟨reply', s', t', hdone, -, f⟩ := answer_alike depth chain s s c hs hs (.refl s) considerate
  obtain ⟨-, rfl⟩ : reply' = reply ∧ s' = t := by simpa [hdone] using done
  obtain ⟨-, ev⟩ := answer_steady depth _ _ _ _ hs.toSteady hdone
  cases hn : s.slotOf? path with
  | none => exact get_of_slotOf?_none ((f.left path hp).trans hn)
  | some slot =>
      have hmesh : s.meshIn slot = none := get_of_slotOf? hn ▸ h
      rw [get_of_slotOf? ((f.left path hp).trans hn)]
      exact ev.meshIn_none ((hs.held hn).mpr hmesh) hmesh

theorem unseen_of_trace {path : String} (hp : path ∈ chain)
    (unseen : ∀ {s : Store α} {c : Call α}, s.Resting chain → s.get path = none →
      Considerate depth chain s c → Throughout (fun _ u _ => Unseen path u) depth chain s c) :
    ∀ (script : Script α) {s : Store α}, s.Resting chain → s.get path = none →
    (∀ u ∈ script.trace (answer depth) s, Considerate depth chain u.1 u.2) →
    ∀ u ∈ script.trace (answer depth) s, Throughout (fun _ u _ => Unseen path u) depth chain u.1 u.2
  | .finish _, s, _, _, _, u, hu => by simp [Script.trace] at hu
  | .call request next, s, hs, h, considerate, u, hu => by
      have hfirst := considerate (s, request) (by simp [Script.trace])
      cases hdone : s.answer depth request with
      | stalled why =>
          obtain rfl : u = (s, request) := by simpa [Script.trace, hdone] using hu
          exact unseen hs h hfirst
      | done reply t =>
          have htrace : (Script.call request next).trace (answer depth) s =
              (s, request) :: (next reply).trace (answer depth) t := by
            simp [Script.trace, hdone]
          rw [htrace] at hu considerate
          obtain rfl | hu := List.mem_cons.mp hu
          · exact unseen hs h hfirst
          · obtain ⟨ht, ev⟩ := answer_steady depth _ _ _ _ hs.toSteady hdone
            exact unseen_of_trace hp unseen (next reply) (hs.evolve ht ev)
              (hfirst.get_eq_none hs hp h hdone)
              (fun v hv => considerate v (List.mem_cons_of_mem _ hv)) u hu

/-- A path that is being loaded has no mesh in the course of considerate calls. -/
theorem Considerate.unseen : ∀ {depth : Nat} {chain : List String} {s : Store α} {c : Call α}
    {path : String}, Considerate depth chain s c → path ∈ chain → s.Resting chain →
    s.get path = none → Throughout (fun _ u _ => Unseen path u) depth chain s c
  | 0, _, _, _, _, h, _, _, _ => h.elim
  | depth + 1, chain, s, c, path, considerate, hp, hs, h => by
      refine ⟨hs.toSound.unseen h, fun name script t loading => ?_⟩
      obtain ⟨r, -, -, hn, e⟩ := hs.toSteady.loading?_eq_some_iff.mp loading
      have ht : t = (s.begun name (.file name r)).2 := congrArg Prod.snd e
      refine unseen_of_trace (List.mem_cons_of_mem _ hp) (fun hs h considerate =>
        considerate.unseen (List.mem_cons_of_mem _ hp) hs h) script ?_ ?_
        (considerate.2 name script t loading)
      · exact ht ▸ hs.begun _ hn
      · rw [ht, get_begun _ hn, h]

/-! ### A load is its calls and a load that makes none -/

theorem answer_load {path : String} (hn : s.slotOf? path = none) {r : Registration α}
    (dispatches : s.dispatch path = .ok r) {result : Except MeshError (Mesh α)} {mid : Store α}
    (run : (s.begun path (.file path r)).1.run (answer depth) (s.begun path (.file path r)).2 =
      .done result mid) :
    s.answer (depth + 1) (.load path) = .done (.made (mid.conclude path s.slots.size result).1)
      (mid.conclude path s.slots.size result).2 := by
  have making : s.making? (.load path) = some (path, .file path r) := by
    simp [making?, dispatches, Except.toOption]
  rw [answer_of_making? making, request_of_absent _ _ hn, run]
  rfl

/-- A loader that has its result at once, registered and run, does what is left to do of a load whose
calls have been made. -/
theorem exists_answer_finish (depth : Nat) {mid : Store α} {path : String} {slot : Nat} {format : Format}
    (result : Except MeshError (Mesh α)) (hf : Format.ofPath path = .ok format)
    (get : ∀ other, mid.get other = s.get other) (published : mid.published = s.published)
    (hmid : mid.Sound) (hslot : mid.slotOf? path = some slot) (hmesh : mid.meshIn slot = none)
    (hs : s.Steady) (hn : s.slotOf? path = none) :
    ∃ last, (s.register format fun _ _ => .finish result).answer (depth + 1) (.load path) =
        .done (.made (mid.conclude path slot result).1) last ∧
      ∀ other, (mid.conclude path slot result).2.get other = last.get other := by
  let t := s.register format fun _ _ => .finish result
  let r : Registration α := ⟨s.registered, fun _ _ => .finish result⟩
  have ht : t.Steady := hs.register format _
  have hd : t.dispatch path = .ok r := dispatch_eq_ok_iff.mpr ⟨format, hf, by simp [t, r, register]⟩
  have run : (t.begun path (.file path r)).1.run (answer depth) (t.begun path (.file path r)).2 =
      .done result (t.begun path (.file path r)).2 := by
    rw [script_begun_file]
    rfl
  obtain ⟨sound, htslot, htmesh⟩ :=
    ht.slot_of_run (s := t) hn run (Keeps.refl [path] _)
  obtain ⟨hresult, hget⟩ := conclude_congr result
    (fun other => (get other).trans (get_begun (s := t) _ hn other).symm)
    (published.trans (published_of_rest (rest_begun (s := t) _)).symm)
    hmid sound hslot htslot hmesh htmesh
  refine ⟨_, ?_, hget⟩
  rw [hresult]
  exact answer_load (s := t) hn hd run

/-- A store on which the calls of a load can be made first: the run of its loader is noted there, or
makes no difference to it. -/
def Forestalls (r : Registration α) (path : String) (s t : Store α) : Prop :=
  t = { s with journal := s.journal.push ⟨r.id, path⟩ } ∨ t = s ∧ r.loader.IgnoresCount

theorem Forestalls.alike {path : String} {r : Registration α} {t : Store α}
    (h : Forestalls r path s t) (hs : s.Resting chain) (hn : s.slotOf? path = none)
    (dispatches : s.dispatch path = .ok r) :
    (s.begun path (.file path r)).2.Alike t ∧ t.Resting chain := by
  have hget : ∀ name, (s.begun path (.file path r)).2.get name = s.get name := get_begun _ hn
  have hrest : (s.begun path (.file path r)).2.rest = s.rest := rest_begun _
  obtain rfl | ⟨rfl, ignores⟩ := h
  · refine ⟨⟨hget, hrest, by simp [Maker.generates], fun id => .inl ?_⟩,
      ⟨⟨⟨hs.nodup, hs.lt, hs.inj⟩, ⟨hs.id_lt, hs.id_inj⟩, hs.held⟩, hs.pending⟩⟩
    exact runs_of_journal (by simp [Maker.loads]) id
  · refine ⟨⟨hget, hrest, by simp [Maker.generates], fun id => ?_⟩, hs⟩
    by_cases e : r.id = id
    · obtain ⟨format, -, hr⟩ := dispatch_eq_ok_iff.mp dispatches
      refine .inr ⟨registered_of_rest hrest ▸ e ▸ hs.id_lt hr, fun f r' hr' e' => ?_⟩
      rw [loaders_of_rest hrest] at hr'
      rwa [hs.id_inj hr' hr (e'.trans e.symm)]
    · exact .inl (by simp [runs_begun, Maker.loads, e])

/-- **A load is its calls, followed by a load that makes none.**  All that its calls do stays, also if
it fails, and none of them finds its path. -/
theorem load_of_calls (occurs : s.Occurs chain) {path : String} {r : Registration α}
    (fresh : path ∉ chain) (absent : s.get path = none) (dispatches : s.dispatch path = .ok r)
    (considerate : Considerate (depth + 1) chain s (.load path)) :
    let begun := s.begun path (.file path r)
    let calls := begun.1.trace (answer depth) begun.2
    ∃ result mid made after, begun.1.run (answer depth) begun.2 = .done result mid ∧
      s.answer (depth + 1) (.load path) = .done (.made made) after ∧
      (∀ u ∈ calls, Throughout (fun _ u _ => Unseen path u) depth (path :: chain) u.1 u.2) ∧
      ∀ t, Forestalls r path s t → ∃ replies first format last,
        t.answerAll depth (calls.map (·.2)) = .done replies first ∧
        List.Forall₂ (fun u reply => ∃ v, u.1.answer depth u.2 = .done reply v) calls replies ∧
        Format.ofPath path = .ok format ∧
        (first.register format fun _ _ => .finish result).answer (depth + 1) (.load path) =
          .done (.made made) last ∧
        after.meshes = last.meshes ∧
        ∀ e, result = .error e →
          made = .error e ∧ after.get path = none ∧ after.meshes = first.meshes := by
  intro begun calls
  have hs := occurs.resting
  have hn := hs.slotOf?_eq_none fresh absent
  have making : s.making? (.load path) = some (path, .file path r) := by
    simp [making?, dispatches, Except.toOption]
  have hb := hs.begun (.file path r) hn
  have htrace := considerate.begun hs.toSteady making hn
  have hgb : begun.2.get path = none := (get_begun _ hn path).trans absent
  -- the loader comes to a result, for each of its calls is answered
  obtain ⟨result, mid, _, hrun, -, f₀, -⟩ :=
    AnswersAlike.run (answer_alike depth) begun.1 hb hb (.refl _) htrace
  obtain ⟨hmid, hslot, hmesh⟩ := hs.toSteady.slot_of_run hn hrun f₀.left
  have hafter := answer_load hn dispatches hrun
  refine ⟨result, mid, _, _, hrun, hafter, ?_, ?_⟩
  · exact unseen_of_trace (by simp) (fun hs h considerate => considerate.unseen (by simp) hs h)
      begun.1 hb hgb htrace
  intro t forestalls
  -- beside the load `t` differs by the pending slot only, so the calls are answered alike
  obtain ⟨halike, ht⟩ := forestalls.alike hs hn dispatches
  obtain ⟨result', mid', first, hrun', -, f, replies, hall, hreplies⟩ :=
    AnswersAlike.run (answer_alike depth) begun.1 hb (ht.mono (by simp)) halike htrace
  obtain ⟨rfl, rfl⟩ : result = result' ∧ mid = mid' := by simpa [hrun] using hrun'
  have hmidpath : mid.get path = none := by rw [get_of_slotOf? hslot, hmesh]
  obtain ⟨sfirst, ev⟩ := answerAll_steady ht.toSteady hall
  have hfirst : first.slotOf? path = none :=
    (ht.evolve sfirst ev).slotOf?_eq_none fresh (f.alike.get path ▸ hmidpath)
  obtain ⟨format, hf, -⟩ := dispatch_eq_ok_iff.mp dispatches
  obtain ⟨last, hlast, hget⟩ := exists_answer_finish depth result hf f.alike.get
    (published_of_rest f.alike.rest) hmid hslot hmesh sfirst hfirst
  have safter := (answer_steady _ _ _ _ _ hs.toSteady hafter).1
  have slast := (answer_steady _ _ _ _ _ (sfirst.register format _) hlast).1
  refine ⟨replies, first, format, last, hall, hreplies, hf, hlast,
    meshes_eq_of_get slast.toSound safter.toSound hget, ?_⟩
  rintro e rfl
  have hkept : ∀ other, (mid.conclude path s.slots.size (.error e)).2.get other = first.get other :=
    fun other => (get_conclude_error hslot hmesh e other).trans (f.alike.get other)
  refine ⟨rfl, ?_, meshes_eq_of_get sfirst.toSound safter.toSound hkept⟩
  rw [get_conclude_error hslot hmesh, hmidpath]

/-- A loader of a whole, which loads its part first. -/
def assembly : Loader Float := fun _ path =>
  if path = "whole.stl" then .call (.load "part.stl") fun _ => .finish (.ok (.empty "whole"))
  else .finish (.ok (.empty "part"))

theorem load_assembly :
    let s := (empty fun _ _ => .error .triangulationUnavailable).register .triangleSoup assembly
    Considerate 2 [] s (.load "whole.stl") ∧ ∃ made after replies first last,
      s.answer 2 (.load "whole.stl") = .done (.made made) after ∧
      s.answerAll 1 [.load "part.stl"] = .done replies first ∧
      (first.register .triangleSoup fun _ _ => .finish (.ok (.empty "whole"))).answer 2
        (.load "whole.stl") = .done (.made made) last ∧ after.meshes = last.meshes := by
  intro s
  have occurs : s.Occurs [] := occurs_register _ _ _
  have hd : s.dispatch "whole.stl" = .ok ⟨0, assembly⟩ :=
    dispatch_eq_ok_iff.mpr ⟨.triangleSoup, by decide +kernel, rfl⟩
  let begun := s.begun "whole.stl" (.file "whole.stl" ⟨0, assembly⟩)
  have hscript : begun.1 = .call (.load "part.stl") fun _ => .finish (.ok (.empty "whole")) := by
    simp [begun, script_begun_file, assembly]
  have htrace : begun.1.trace (answer 1) begun.2 = [(begun.2, .load "part.stl")] := by
    rw [hscript, Script.trace]
    cases begun.2.answer 1 (.load "part.stl") <;> simp [Script.trace]
  -- the loader of the part makes no calls
  have part : Considerate 1 ["whole.stl"] begun.2 (.load "part.stl") := by
    refine ⟨by simp [Call.Spares], fun path script t loading => ?_⟩
    have hb : begun.2.Resting ["whole.stl"] := occurs.resting.begun _ rfl
    have hp : begun.2.dispatch "part.stl" = .ok ⟨0, assembly⟩ :=
      dispatch_eq_ok_iff.mpr ⟨.triangleSoup, by decide +kernel, rfl⟩
    obtain ⟨r, e, hr, -, eb⟩ := hb.loading?_eq_some_iff.mp loading
    cases e
    cases hp.symm.trans hr
    have hs : script = .finish (.ok (.empty "part")) := by
      rw [show script = _ from congrArg Prod.fst eb, script_begun_file]
      simp [assembly]
    simp [hs, Script.trace]
  have considerate : Considerate 2 [] s (.load "whole.stl") := by
    refine ⟨by simp [Call.Spares], fun path script t loading u hu => ?_⟩
    obtain ⟨r, e, hr, -, hb⟩ := occurs.resting.loading?_eq_some_iff.mp loading
    cases e
    cases hd.symm.trans hr
    obtain ⟨rfl, rfl⟩ : script = begun.1 ∧ t = begun.2 := by simpa [Prod.ext_iff] using hb
    obtain rfl : u = _ := by simpa [htrace] using hu
    exact part
  obtain ⟨result, mid, made, after, hrun, hafter, -, hfirst⟩ :=
    load_of_calls occurs (by simp) rfl hd considerate
  obtain ⟨replies, first, format, last, hall, -, hf, hlast, hmeshes, -⟩ :=
    hfirst s (.inr ⟨rfl, fun _ _ _ => rfl⟩)
  obtain rfl : Format.triangleSoup = format := by
    have : Format.ofPath "whole.stl" = .ok .triangleSoup := by decide +kernel
    simpa [this] using hf
  obtain rfl : result = .ok (.empty "whole") := by
    obtain ⟨reply, t, -, h⟩ := Outcome.andThen_eq_done.mp (hscript ▸ hrun)
    cases h
    rfl
  rw [htrace] at hall
  exact ⟨considerate, made, after, replies, first, last, hafter, hall, hlast, hmeshes⟩

end Store

end TriMesh
