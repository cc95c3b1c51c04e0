import Mathlib.Data.Finmap
import Mathlib.Data.Finset.Sort
import Mathlib.Data.List.Sort
import Mathlib.Data.String.Basic
import TriMesh.Proofs.StoreStates

/-! # The meshes of a store as a finite map

Seen through its queries a store is a finite map from names to meshes (`Store.meshes`): looking a name
up is `get`, and `names` lists the keys in increasing order.  An empty slot has no place in the map.
The map changes in three ways: a name is taken out, all names are, or a mesh that has been made is put
in under a name that had none. -/

namespace TriMesh.Store

variable {α : Type}

theorem lookup_eq_some_iff_mem : ∀ {l : List (String × Nat)}, (l.map (·.1)).Nodup →
    ∀ {name slot}, l.lookup name = some slot ↔ (name, slot) ∈ l
  | [], _, name, slot => by simp
  | (n, i) :: l, h, name, slot => by
      obtain ⟨hn, hl⟩ := List.nodup_cons.mp h
      have ih : l.lookup name = some slot ↔ (name, slot) ∈ l := lookup_eq_some_iff_mem hl
      by_cases e : name = n
      · subst e
        have hmem : (name, slot) ∉ l := fun hm => hn (List.mem_map.mpr ⟨_, hm, rfl⟩)
        simp [hmem, eq_comm]
      · have hb : (name == n) = false := beq_false_of_ne e
        simp [List.lookup_cons, hb, ih, e]

theorem Sound.slotOf?_eq_some_iff {s : Store α} (hs : s.Sound) {name : String} {slot : Nat} :
    s.slotOf? name = some slot ↔ (name, slot) ∈ s.table := lookup_eq_some_iff_mem hs.nodup

/-- The stored meshes. -/
def meshes (s : Store α) : Finmap fun _ : String => Handle α :=
  (s.table.filterMap fun e => (s.meshIn e.2).map (Sigma.mk e.1)).toFinmap

theorem dlookup_filterMap (f : Nat → Option (Handle α)) (name : String) :
    ∀ {l : List (String × Nat)}, (l.map (·.1)).Nodup →
    List.dlookup name (l.filterMap fun e => (f e.2).map (Sigma.mk (β := fun _ => Handle α) e.1)) =
      (l.lookup name).bind f
  | [], _ => by simp
  | (n, i) :: l, h => by
      obtain ⟨hn, hl⟩ := List.nodup_cons.mp h
      have ih := dlookup_filterMap f name hl
      by_cases e : name = n
      · subst e
        cases hf : f i with
        | none =>
            have hnone : l.lookup name = none := by
              refine List.lookup_eq_none_iff.mpr fun p hp => bne_iff_ne.mpr fun e => ?_
              exact hn (List.mem_map.mpr ⟨p, hp, e.symm⟩)
            simp [hf, ih, hnone]
        | some x => simp [hf]
      · have hb : (name == n) = false := beq_false_of_ne e
        cases hf : f i <;> simp [hf, List.lookup_cons, hb, ih, e]

theorem Sound.lookup_meshes {s : Store α} (hs : s.Sound) (name : String) :
    s.meshes.lookup name = s.get name := by
  rw [meshes, Finmap.dlookup_list_toFinmap]
  exact dlookup_filterMap s.meshIn name hs.nodup

theorem Sound.mem_meshes {s : Store α} (hs : s.Sound) {name : String} :
    name ∈ s.meshes ↔ (s.get name).isSome := by
  rw [← hs.lookup_meshes, Finmap.lookup_isSome]

/-- Two sound stores with the same answers to `get` are the same map. -/
theorem meshes_eq_of_get {s t : Store α} (hs : s.Sound) (ht : t.Sound)
    (h : ∀ name, t.get name = s.get name) : t.meshes = s.meshes :=
  Finmap.ext_lookup fun name => by rw [ht.lookup_meshes, hs.lookup_meshes, h]

/-! ### Queries -/

theorem Sound.mem_names {s : Store α} (hs : s.Sound) {name : String} :
    name ∈ s.names ↔ (s.get name).isSome := by
  simp only [names, List.mem_mergeSort, List.mem_map, List.mem_filter]
  constructor
  · rintro ⟨⟨n, slot⟩, ⟨hmem, hmesh⟩, rfl⟩
    rwa [get_of_slotOf? (hs.slotOf?_eq_some_iff.mpr hmem)]
  · intro h
    obtain ⟨m, hm⟩ := Option.isSome_iff_exists.mp h
    obtain ⟨slot, hslot, hmesh⟩ := get_eq_some_iff.mp hm
    exact ⟨(name, slot), ⟨hs.slotOf?_eq_some_iff.mp hslot, by simp [hmesh]⟩, rfl⟩

theorem Sound.names_eq_sort {s : Store α} (hs : s.Sound) :
    s.names = s.meshes.keys.sort := by
  have hnodup : s.names.Nodup := by
    refine (List.mergeSort_perm _ _).nodup_iff.mpr ?_
    exact hs.nodup.sublist (List.filter_sublist.map _)
  have hmem : s.names.Perm s.meshes.keys.sort := by
    refine (List.perm_ext_iff_of_nodup hnodup (Finset.sort_nodup _ _)).mpr fun name => ?_
    rw [hs.mem_names, Finset.mem_sort, Finmap.mem_keys, hs.mem_meshes]
  refine hmem.eq_of_pairwise' ?_ (Finset.pairwise_sort _ _)
  exact List.pairwise_mergeSort' _ _

theorem names_eq_of_get {s t : Store α} (hs : s.Sound) (ht : t.Sound)
    (h : ∀ name, t.get name = s.get name) : t.names = s.names := by
  rw [hs.names_eq_sort, ht.names_eq_sort, meshes_eq_of_get hs ht h]

/-! ### Changes -/

theorem remove_of_none {s : Store α} {name : String} (hn : s.slotOf? name = none) :
    s.remove name = (none, s) := by
  simp [remove, hn]

theorem remove_of_some {s : Store α} {name : String} {slot : Nat} (hn : s.slotOf? name = some slot) :
    s.remove name = (s.forget name).takeOut slot := by
  simp [remove, hn]

theorem remove_fst (s : Store α) (name : String) : (s.remove name).1 = s.get name := by
  cases hn : s.slotOf? name with
  | none => rw [remove_of_none hn, get_of_slotOf?_none hn]
  | some slot =>
      rw [remove_of_some hn, get_of_slotOf? hn]
      rfl

theorem Sound.get_remove {s : Store α} (hs : s.Sound) (name other : String) :
    (s.remove name).2.get other = if other = name then none else s.get other := by
  cases hn : s.slotOf? name with
  | none =>
      rw [remove_of_none hn]
      split
      · next e => rw [e, get_of_slotOf?_none hn]
      · rfl
  | some slot =>
      rw [remove_of_some hn]
      simp only [get, slotOf?_takeOut, slotOf?_forget]
      split
      · rfl
      · next e =>
          cases ho : s.slotOf? other with
          | none => rfl
          | some i =>
              have hne : i ≠ slot := fun hi => e (hs.inj (hi ▸ ho) hn)
              simp [hne]

theorem rest_remove (s : Store α) (name : String) : (s.remove name).2.rest = s.rest := by
  cases hn : s.slotOf? name with
  | none => rw [remove_of_none hn]
  | some slot =>
      rw [remove_of_some hn]
      rfl

theorem journal_remove (s : Store α) (name : String) : (s.remove name).2.journal = s.journal := by
  cases hn : s.slotOf? name with
  | none => rw [remove_of_none hn]
  | some slot =>
      rw [remove_of_some hn]
      rfl

theorem generated_remove (s : Store α) (name : String) :
    (s.remove name).2.generated = s.generated := by
  cases hn : s.slotOf? name with
  | none => rw [remove_of_none hn]
  | some slot =>
      rw [remove_of_some hn]
      rfl

theorem get_begun [Scalar α] {s : Store α} {name : String} (maker : Maker α)
    (hn : s.slotOf? name = none) (other : String) :
    (s.begun name maker).2.get other = s.get other := by
  unfold get
  rw [slotOf?_begun]
  split
  · next e =>
      have hslot : (s.slotFor name).2 = s.slots.size := by simp [slotFor_of_none hn]
      simp [e, hn, hslot, meshIn_begun, meshIn_of_size_le]
  · exact congrArg _ (funext fun i => meshIn_begun maker i)

section Conclude

variable {s : Store α} {name : String} {slot : Nat}

theorem Sound.get_conclude_ok (hs : s.Sound) (hn : s.slotOf? name = some slot) (mesh : Mesh α)
    (other : String) : (s.conclude name slot (.ok mesh)).2.get other =
      if other = name then some ⟨s.published, mesh.rename name⟩ else s.get other := by
  have hlt := hs.lt hn
  simp only [conclude, get, slotOf?_unlock, slotOf?_publish]
  split
  · next e => simp [e, hn, meshIn_publish _ _ _ hlt]
  · next e =>
      cases ho : s.slotOf? other with
      | none => rfl
      | some i =>
          have hne : i ≠ slot := fun hi => e (hs.inj (hi ▸ ho) hn)
          simp [meshIn_publish _ _ _ hlt, hne]

/-- A failure leaves the map as it is, for the name had no mesh before. -/
theorem get_conclude_error (hn : s.slotOf? name = some slot) (hm : s.meshIn slot = none)
    (e : MeshError) (other : String) :
    (s.conclude name slot (.error e)).2.get other = s.get other := by
  simp only [conclude, get, slotOf?_discardEmpty, slotOf?_unlock, isHeld_unlock, if_true,
    meshIn_unlock, hn, hm, and_self, and_true]
  split
  · next e => simp [e, hn, hm]
  · exact congrArg _ (funext fun i => by simp)

theorem rest_conclude_ok (mesh : Mesh α) : (s.conclude name slot (.ok mesh)).2.rest =
    { s.rest with published := s.published + 1 } := rfl

theorem rest_conclude_error (e : MeshError) :
    (s.conclude name slot (.error e)).2.rest = s.rest := by
  simp [conclude]

theorem journal_conclude (result : Except MeshError (Mesh α)) :
    (s.conclude name slot result).2.journal = s.journal := by
  cases result with
  | ok mesh => rfl
  | error e => exact journal_discardEmpty _ name slot

theorem generated_conclude (result : Except MeshError (Mesh α)) :
    (s.conclude name slot result).2.generated = s.generated := by
  cases result with
  | ok mesh => rfl
  | error e => exact generated_discardEmpty _ name slot

end Conclude

end TriMesh.Store
