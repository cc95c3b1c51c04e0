import TriMesh.Proofs.TableOwnership

/-! # Chronicles of a shared store

Which call an answer belongs to, and which answers came before a call was made, cannot be told from a
shared store, and the answers to calls of loaders are gone once the loaders have them. A chronicle
keeps these things beside the shared store, which takes no notice of it (`Chronicle.map_step`).

* `Chronicle.step allowed` is one event, where calls may begin as far as they are allowed to.
* The calls of a thread and its loader runs go together (`Coherent.serves`), so that an answer is
  recorded with the call that it answers.
* What holds of a new store and is kept by every event holds after every run
  (`Chronicle.run_induction`). -/

namespace TriMesh

/-- The name of the mesh that a call asks for. -/
def Call.wanted? {α : Type} : Call α → Option String
  | .addMesh mesh => some mesh.name
  | .getOrCreate name _ | .createExtruded name _ | .load name => some name
  | _ => none

/-- A call that has been made. -/
structure Asked (α : Type) where
  call : Call α
  /-- The number of answers that had been given before. -/
  since : Nat

/-- A shared store and what has happened to it. -/
structure Chronicle (α : Type) where
  shared : SharedStore α
  /-- The calls of each thread that are under way, from the inside out. -/
  asked : Nat → List (Asked α)
  /-- All answers in their order, also to calls of loaders. -/
  answers : List (Asked α × Reply α)
  /-- The names for which a mesh has been made, each as often as it has. -/
  made : List String

variable {α : Type}

theorem getElem?_set_cases {threads : List (Thread α)} {i j : Nat} {t u : Thread α}
    (h : (threads.set i t)[j]? = some u) : j = i ∧ u = t ∨ j ≠ i ∧ threads[j]? = some u := by
  rw [List.getElem?_set] at h
  grind

theorem getElem?_concat_cases {threads : List (Thread α)} {j : Nat} {t u : Thread α}
    (h : (threads ++ [t])[j]? = some u) :
    j = threads.length ∧ u = t ∨ j ≠ threads.length ∧ threads[j]? = some u := by
  rw [List.getElem?_append] at h
  grind

/-- The calls of a thread after its next section. -/
def Activity.asks (now : Nat) (asked : List (Asked α)) : Activity α → List (Asked α)
  | .answered _ => asked.tail
  | .requesting _ _ (.making _ (.call request _)) => ⟨request, now⟩ :: asked
  | _ => asked

/-- The answer that a section has come to. -/
def Activity.answers (asked : List (Asked α)) : Activity α → List (Asked α × Reply α)
  | .answered reply => asked.head?.toList.map (·, reply)
  | _ => []

/-- The name for which a mesh comes out of its making in the next section. -/
def Activity.makes : Activity α → List String
  | .requesting name _ (.making _ (.finish (.ok _))) => [name]
  | _ => []

theorem Activity.mem_asks {a : Activity α} {now : Nat} {asked : List (Asked α)} {b : Asked α}
    (h : b ∈ a.asks now asked) : b ∈ asked ∨ b.since = now := by
  unfold asks at h
  split at h
  · exact .inl (List.mem_of_mem_tail h)
  · obtain rfl | h := List.mem_cons.mp h
    · exact .inr rfl
    · exact .inl h
  · exact .inl h

theorem Activity.mem_answers {a : Activity α} {asked : List (Asked α)} {e : Asked α × Reply α}
    (h : e ∈ a.answers asked) : a = .answered e.2 ∧ asked.head? = some e.1 := by
  unfold answers at h
  split at h
  · obtain ⟨b, hb, rfl⟩ := List.mem_map.mp h
    exact ⟨rfl, by simpa using hb⟩
  · cases h

theorem Activity.eq_making_of_makes {a : Activity α} {name : String} (h : name ∈ a.makes) :
    ∃ maker slot mesh, a = .requesting name maker (.making slot (.finish (.ok mesh))) := by
  unfold makes at h
  split at h
  · next n maker slot mesh =>
      obtain rfl := List.mem_singleton.mp h
      exact ⟨maker, slot, mesh, rfl⟩
  · cases h

namespace Chronicle

/-- What an event leads to, written down. -/
def note (r : Chronicle α) (shared : SharedStore α) : Event α → Chronicle α
  | .arrive call =>
    { r with shared, asked := Function.update r.asked r.shared.threads.length [⟨call, r.answers.length⟩] }
  | .generate _ _ => { r with shared }
  | .advance i =>
    match r.shared.threads[i]?, shared.threads[i]? with
    | some t, some t' => {
        shared
        asked := Function.update r.asked i (t.now.asks r.answers.length (r.asked i))
        answers := r.answers ++ t'.now.answers (r.asked i)
        made := r.made ++ t.now.makes }
    | _, _ => { r with shared }

variable [Scalar α] (allowed : SharedStore α → Call α → Bool)

def step (r : Chronicle α) (event : Event α) : Option (Chronicle α) :=
  if (r.shared.begins? event).all (allowed r.shared) then
    (r.shared.step event).map (r.note · event)
  else none

def run (r : Chronicle α) (events : List (Event α)) : Option (Chronicle α) :=
  events.foldlM (step allowed) r

/-- A store without threads, of which nothing is known. -/
def start (s : Store α) : Chronicle α := ⟨{ store := s }, fun _ => [], [], []⟩

/-- A chronicle does not stand in the way of what it records. -/
theorem map_step {allowed : SharedStore α → Call α → Bool} {r : Chronicle α} {event : Event α}
    (h : (r.shared.begins? event).all (allowed r.shared) = true) :
    (r.step allowed event).map (·.shared) = r.shared.step event := by
  have hnote : ∀ shared, (r.note shared event).shared = shared := by
    intro shared
    cases event with
    | advance i =>
        simp only [note]
        split <;> rfl
    | _ => rfl
  simp [step, h, Function.comp_def, hnote]

theorem happens_of_step {allowed : SharedStore α → Call α → Bool} {r r' : Chronicle α}
    {event : Event α} (h : r.step allowed event = some r') :
    r.shared.step event = some r'.shared ∧
      ∀ c, r.shared.begins? event = some c → allowed r.shared c = true := by
  by_cases hallowed : (r.shared.begins? event).all (allowed r.shared) = true
  · refine ⟨by rw [← map_step hallowed, h]; rfl, fun c hc => ?_⟩
    simpa [hc] using hallowed
  · simp [step, hallowed] at h

/-- What is kept by every event holds after every run. -/
theorem run_induction {allowed : SharedStore α → Call α → Bool} {motive : Chronicle α → Prop}
    (step : ∀ {r r' event}, motive r → step allowed r event = some r' → motive r') :
    ∀ {events : List (Event α)} {r r' : Chronicle α}, motive r → r.run allowed events = some r' →
      motive r'
  | [], r, r', hr, h => by
      cases h
      exact hr
  | event :: events, r, r', hr, h => by
      obtain ⟨mid, hmid, h⟩ := Option.bind_eq_some_iff.mp h
      exact run_induction step (step hr hmid) h

/-- An event that has happened and has been written down. -/
inductive Follows (allowed : SharedStore α → Call α → Bool) (r : Chronicle α) :
    Event α → Chronicle α → Prop where
  | arrive (call : Call α) : Follows allowed r (.arrive call) {
      r with
      shared := { r.shared with threads := r.shared.threads ++ [.ofCall call] }
      asked := Function.update r.asked r.shared.threads.length [⟨call, r.answers.length⟩] }
  | advance {i : Nat} {t t' : Thread α} {store : Store α} (thread : r.shared.threads[i]? = some t)
      (begins : ∀ c, t.now = .ready c → allowed r.shared c = true)
      (happens : t.step r.shared.store = some (store, t'))
      (table : t.now.takesTable = true → r.shared.isTableFree = true) : Follows allowed r (.advance i) {
      shared := { store, threads := r.shared.threads.set i t' }
      asked := Function.update r.asked i (t.now.asks r.answers.length (r.asked i))
      answers := r.answers ++ t'.now.answers (r.asked i)
      made := r.made ++ t.now.makes }
  | generate {i : Nat} {t t' : Thread α} {store : Store α} {result : Except MeshError (Mesh α)}
      (thread : r.shared.threads[i]? = some t)
      (happens : t.generate r.shared.store result = some (store, t')) :
      Follows allowed r (.generate i result) { r with
        shared := { store, threads := r.shared.threads.set i t' } }

theorem follows_of_step {allowed : SharedStore α → Call α → Bool} {r r' : Chronicle α}
    {event : Event α} (h : r.step allowed event = some r') : r.Follows allowed event r' := by
  unfold step at h
  split at h
  · next hallowed =>
      obtain ⟨shared, hshared, rfl⟩ := Option.map_eq_some_iff.mp h
      cases event with
      | arrive call =>
          cases hshared
          exact .arrive call
      | advance i =>
          obtain ⟨t, t', store, ht, table, hstep, rfl⟩ := SharedStore.step_advance_iff.mp hshared
          have ht' : (r.shared.threads.set i t')[i]? = some t' := by
            simp [(List.getElem?_eq_some_iff.mp ht).1]
          have hbegins : ∀ c, t.now = .ready c → allowed r.shared c = true := by
            intro c hc
            simpa [SharedStore.begins?, ht, hc] using hallowed
          simp only [note, ht, ht']
          exact .advance ht hbegins hstep table
      | generate i result =>
          simp only [SharedStore.step, Option.bind_eq_bind, Option.bind_eq_some_iff] at hshared
          obtain ⟨t, ht, ⟨store, t'⟩, hgen, e⟩ := hshared
          cases e
          exact .generate ht hgen
  · cases h

end Chronicle

/-! ### Calls and their answers -/

/-- What is under way for a call. -/
def Activity.Serves (c : Call α) : Activity α → Prop
  | .ready call | .reading call _ => call = c
  | .listing _ _ _ => c = .names ∨ c = .size
  | .emptying _ => ∃ name, c = .remove name
  | .requesting name _ _ => c.wanted? = some name
  | .answered _ => True

/-- The calls that a thread and its waiting loader runs are under way for. -/
def Thread.Serves (asked : List (Asked α)) (t : Thread α) : Prop :=
  ∃ a rest, asked = a :: rest ∧ t.now.Serves a.call ∧
    List.Forall₂ (fun a p => a.call.wanted? = some p.name) rest t.outer

theorem Activity.serves_start {s s' : Store α} {c : Call α} {a : Activity α}
    (h : Activity.start s c = (s', a)) : a.Serves c := by
  have hlookup : ∀ {name}, (c = .get name ∨ c = .contains name ∨ ∃ e, c = .createExtruded name e) →
      (Activity.lookup s c name).Serves c := by
    intro name hc
    unfold lookup
    split
    · rfl
    · obtain rfl | rfl | ⟨e, rfl⟩ := hc
      · trivial
      · trivial
      · rfl
  cases c with
  | get name =>
      cases h
      exact hlookup (.inl rfl)
  | contains name =>
      cases h
      exact hlookup (.inr (.inl rfl))
  | createExtruded name e =>
      cases h
      exact hlookup (.inr (.inr ⟨e, rfl⟩))
  | remove name =>
      simp only [start] at h
      split at h
      · cases h
        exact ⟨name, rfl⟩
      · cases h
        trivial
  | load path =>
      simp only [start] at h
      split at h
      · cases h
        rfl
      · cases h
        trivial
  | clear | register format loader =>
      cases h
      trivial
  | names | size =>
      cases h
      simp [Serves]
  | addMesh mesh | getOrCreate name spec =>
      cases h
      rfl

theorem Activity.serves_afterLookup (c : Call α) (h : Option (Handle α)) :
    (Activity.afterLookup c h).Serves c := by
  cases c with
  | createExtruded name e => cases h <;> simp [afterLookup, Serves, Call.wanted?]
  | _ => trivial

section Sections

variable [Scalar α] {s s' : Store α} {c : Call α}

theorem Activity.serves_advance {name : String} {maker : Maker α} {p : Progress α} {a : Activity α}
    (h : c.wanted? = some name) (happens : Activity.advance s name maker p = some (s', a)) :
    a.Serves c := by
  unfold advance at happens
  split at happens <;> (try split at happens) <;> cases happens <;> first | exact h | trivial

theorem Activity.Serves.step {a a' : Activity α} (h : a.Serves c)
    (happens : a.step s = some (s', a')) : a'.Serves c := by
  cases a with
  | ready call =>
      obtain rfl := h
      exact serves_start (by simpa [Activity.step] using happens)
  | reading call slot =>
      obtain rfl := h
      cases happens
      exact serves_afterLookup call _
  | listing call rest found =>
      cases rest with
      | nil =>
          cases happens
          cases call <;> trivial
      | cons e rest =>
          cases happens
          exact h
  | emptying slot =>
      cases happens
      trivial
  | requesting name maker p => exact serves_advance h happens
  | answered reply => cases happens

/-- A section of a call itself asks for nothing else. -/
theorem Activity.asks_of_step {a a' : Activity α} (happens : a.step s = some (s', a')) (now : Nat)
    (asked : List (Asked α)) : a.asks now asked = asked := by
  cases a with
  | answered reply => cases happens
  | requesting name maker p =>
      cases p with
      | making slot script =>
          cases script with
          | call request next => cases happens
          | finish result => rfl
      | _ => rfl
  | _ => rfl

theorem Thread.Serves.step {t t' : Thread α} {asked : List (Asked α)} (h : t.Serves asked)
    (happens : t.step s = some (s', t')) (now : Nat) : t'.Serves (t.now.asks now asked) := by
  obtain ⟨a, rest, rfl, hnow, hrest⟩ := h
  unfold Thread.step at happens
  split at happens
  · cases happens
  · next reply p outer hanswered houter =>
      cases happens
      rw [houter] at hrest
      cases hrest with
      | cons hp hrest =>
          rw [hanswered]
          exact ⟨_, _, rfl, hp, hrest⟩
  · next name maker slot request next hcall =>
      cases happens
      rw [hcall] at hnow ⊢
      exact ⟨_, _, rfl, rfl, .cons hnow hrest⟩
  · obtain ⟨⟨u, now'⟩, hstep, e⟩ := Option.map_eq_some_iff.mp happens
    cases e
    rw [Activity.asks_of_step hstep]
    exact ⟨a, rest, rfl, hnow.step hstep, hrest⟩

end Sections

theorem Thread.Serves.generate {t t' : Thread α} {asked : List (Asked α)} (h : t.Serves asked)
    {s s' : Store α} {result : Except MeshError (Mesh α)}
    (happens : t.generate s result = some (s', t')) :
    t'.Serves asked := by
  obtain ⟨a, rest, rfl, hnow, hrest⟩ := h
  unfold Thread.generate at happens
  split at happens
  · next hstarting =>
      cases happens
      rw [hstarting] at hnow
      exact ⟨a, rest, rfl, hnow, hrest⟩
  · cases happens

namespace Chronicle

/-- A chronicle is true to its shared store. -/
structure Coherent (r : Chronicle α) : Prop where
  orderly : r.shared.Orderly
  serves {i : Nat} {t : Thread α} : r.shared.threads[i]? = some t → t.Serves (r.asked i)
  asked_since : ∀ i, ∀ a ∈ r.asked i, a.since ≤ r.answers.length
  answers_since : ∀ e ∈ r.answers, e.1.since ≤ r.answers.length

variable [Scalar α]

theorem coherent_start {s : Store α} (h : s.Occurs []) : (start s).Coherent where
  orderly := SharedStore.orderly_of_occurs h
  serves ht := by simp [start] at ht
  asked_since i a ha := by simp [start] at ha
  answers_since e he := by simp [start] at he

theorem Coherent.step {allowed : SharedStore α → Call α → Bool} {r r' : Chronicle α}
    {event : Event α} (h : r.Coherent) (hstep : r.step allowed event = some r') :
    r'.Coherent := by
  refine ⟨h.orderly.step (happens_of_step hstep).1, ?_, ?_, ?_⟩
  · cases follows_of_step hstep with
    | arrive call =>
        intro j u hu
        obtain ⟨rfl, rfl⟩ | ⟨hne, hu⟩ := getElem?_concat_cases hu
        · exact ⟨_, [], Function.update_self .., rfl, .nil⟩
        · simpa [hne] using h.serves hu
    | advance thread begins happens =>
        intro j u hu
        obtain ⟨rfl, rfl⟩ | ⟨hne, hu⟩ := getElem?_set_cases hu
        · simpa using (h.serves thread).step happens _
        · simpa [hne] using h.serves hu
    | generate thread happens =>
        intro j u hu
        obtain ⟨rfl, rfl⟩ | ⟨hne, hu⟩ := getElem?_set_cases hu
        · exact (h.serves thread).generate happens
        · exact h.serves hu
  · cases follows_of_step hstep with
    | arrive call =>
        intro j a ha
        obtain rfl | hne := eq_or_ne j r.shared.threads.length
        · obtain rfl : a = _ := by simpa using ha
          exact Nat.le_refl _
        · exact h.asked_since j a (by simpa [hne] using ha)
    | @advance i t t' store thread begins happens =>
        intro j a ha
        rw [List.length_append]
        obtain rfl | hne := eq_or_ne j i
        · obtain ha | e := Activity.mem_asks (by simpa using ha)
          · exact Nat.le_add_right_of_le (h.asked_since j a ha)
          · exact e ▸ Nat.le_add_right _ _
        · exact Nat.le_add_right_of_le (h.asked_since j a (by simpa [hne] using ha))
    | generate => exact h.asked_since
  · cases follows_of_step hstep with
    | @advance i t t' store thread begins happens =>
        intro e he
        rw [List.length_append]
        obtain he | he := List.mem_append.mp he
        · exact Nat.le_add_right_of_le (h.answers_since e he)
        · have hmem := List.mem_of_head? (Activity.mem_answers he).2
          exact Nat.le_add_right_of_le (h.asked_since i e.1 hmem)
    | _ => exact h.answers_since

end Chronicle

end TriMesh
