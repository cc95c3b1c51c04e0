import Mathlib.Algebra.BigOperators.Group.Multiset.Defs
import Mathlib.Algebra.BigOperators.Group.Finset.Basic
import Mathlib.Data.Multiset.Bind
import Mathlib.Data.Multiset.Count
import Mathlib.Tactic
import TriMesh.Proofs.Buffers

/-! # Surfaces

A surface is a list of triangles given by their corners and no longer by indices, so that vertices at
one position are one corner.

* The directed edges of a surface are a multiset: each facet brings three, in winding order.
* `IsClosed`: among the facets with three different corners every directed edge occurs once, and once
  in the other direction.  `IsBalanced`: every directed edge occurs as often as its reverse.
* The edges of a surface do not depend on the order of its facets or on the corner with which a facet
  begins (`Similar`). -/

namespace TriMesh

/-- A triangle given by its corners, in winding order. -/
structure Facet (β : Type) where
  /-- First corner. -/
  a : β
  /-- Second corner. -/
  b : β
  /-- Third corner. -/
  c : β
deriving DecidableEq

namespace Facet

variable {β γ : Type}

/-- The three directed edges around the facet. -/
def edges (f : Facet β) : List (β × β) := [(f.a, f.b), (f.b, f.c), (f.c, f.a)]

/-- No two corners coincide. -/
def IsProper (f : Facet β) : Prop := f.a ≠ f.b ∧ f.b ≠ f.c ∧ f.c ≠ f.a

instance [DecidableEq β] (f : Facet β) : Decidable f.IsProper := inferInstanceAs (Decidable (_ ∧ _))

/-- Every corner replaced by its image. -/
def map (g : β → γ) (f : Facet β) : Facet γ := ⟨g f.a, g f.b, g f.c⟩

/-- The same corners the other way round. -/
def flip (f : Facet β) : Facet β := ⟨f.a, f.c, f.b⟩

/-- The same facet, begun with its second corner. -/
def rotate (f : Facet β) : Facet β := ⟨f.b, f.c, f.a⟩

/-- Two facets differ only in the corner with which they begin. -/
def Similar (f g : Facet β) : Prop := f = g ∨ f = g.rotate ∨ f = g.rotate.rotate

theorem Similar.perm_edges {f g : Facet β} (h : f.Similar g) : f.edges.Perm g.edges := by
  rcases h with rfl | rfl | rfl
  · exact List.Perm.refl _
  · exact (@List.perm_append_comm _ [_] [_, _]).symm
  · exact (@List.perm_append_comm _ [_, _] [_]).symm

/-- The facet turned over has all edges the other way. -/
theorem edges_flip_perm (f : Facet β) : f.flip.edges.Perm (f.edges.map Prod.swap) :=
  List.reverse_perm (f.edges.map Prod.swap)

theorem Similar.isProper_iff {f g : Facet β} (h : f.Similar g) : f.IsProper ↔ g.IsProper := by
  rcases h with rfl | rfl | rfl <;> simp only [IsProper, rotate] <;> tauto

end Facet

/-! ### Triangles as facets -/

/-- The facet of a triangle over a list of places, if all three are there. -/
def Triangle.facet? {β : Type} (places : Array β) (t : Triangle) : Option (Facet β) := do
  return ⟨← places[t.a]?, ← places[t.b]?, ← places[t.c]?⟩

namespace Triangle

variable {β γ : Type}

theorem facet?_eq {places : Array β} {t : Triangle} {a b c : β} (ha : places[t.a]? = some a)
    (hb : places[t.b]? = some b) (hc : places[t.c]? = some c) :
    t.facet? places = some ⟨a, b, c⟩ := by
  unfold facet?
  rw [ha, hb, hc]
  rfl

theorem exists_facet? {places : Array β} {t : Triangle} (h : t.Below places.size) :
    ∃ f, t.facet? places = some f :=
  ⟨_, facet?_eq (Array.getElem?_eq_getElem h.1) (Array.getElem?_eq_getElem h.2.1)
    (Array.getElem?_eq_getElem h.2.2)⟩

theorem facet?_append_of_below {places : Array β} {t : Triangle} (h : t.Below places.size)
    (more : Array β) : t.facet? (places ++ more) = t.facet? places := by
  unfold facet?
  rw [Array.getElem?_append_left h.1, Array.getElem?_append_left h.2.1,
    Array.getElem?_append_left h.2.2]

theorem facet?_append_shift (places more : Array β) (t : Triangle) :
    (t.shift places.size).facet? (places ++ more) = t.facet? more := by
  have h (i : ℕ) : (places ++ more)[i + places.size]? = more[i]? := by
    rw [Array.getElem?_append_right (Nat.le_add_left _ _), Nat.add_sub_cancel]
  simp only [facet?, shift, h]

theorem facet?_flip (places : Array β) (t : Triangle) :
    t.flip.facet? places = (t.facet? places).map Facet.flip := by
  simp only [facet?, flip, Option.bind_eq_bind, Option.pure_def]
  cases places[t.a]? <;> cases places[t.b]? <;> cases places[t.c]? <;> rfl

theorem facet?_map (g : β → γ) (places : Array β) (t : Triangle) :
    t.facet? (places.map g) = (t.facet? places).map (Facet.map g) := by
  simp only [facet?, Array.getElem?_map, Option.bind_eq_bind, Option.pure_def]
  cases places[t.a]? <;> cases places[t.b]? <;> cases places[t.c]? <;> rfl

end Triangle

/-- A list of facets. -/
abbrev Surface (β : Type) := List (Facet β)

/-- The facets of triangles over a list of places. -/
def Triangle.facets {β : Type} (places : Array β) (ts : List Triangle) : Surface β :=
  ts.filterMap (facet? places)

namespace Triangle

variable {β : Type} {places : Array β} {ts : List Triangle}

theorem length_facets (h : ∀ t ∈ ts, t.Below places.size) : (facets places ts).length = ts.length := by
  unfold facets
  induction ts with
  | nil => rfl
  | cons t ts ih =>
      obtain ⟨f, hf⟩ := exists_facet? (h t List.mem_cons_self)
      rw [List.filterMap_cons_some hf, List.length_cons, List.length_cons,
        ih fun u hu => h u (List.mem_cons_of_mem t hu)]

theorem facets_append (h : ∀ t ∈ ts, t.Below places.size) (more : Array β) (us : List Triangle) :
    facets (places ++ more) (ts ++ us.map (·.shift places.size)) =
      facets places ts ++ facets more us := by
  unfold facets
  rw [List.filterMap_append, List.filterMap_map]
  congr 1
  · apply List.filterMap_congr
    intro t ht
    exact facet?_append_of_below (h t ht) more
  · apply List.filterMap_congr
    intro u _
    exact facet?_append_shift places more u

theorem facets_map_flip (places : Array β) (ts : List Triangle) :
    facets places (ts.map Triangle.flip) = (facets places ts).map Facet.flip := by
  unfold facets
  rw [List.filterMap_map, List.map_filterMap]
  apply List.filterMap_congr
  intro t _
  exact facet?_flip places t

end Triangle

/-- The complete triangles of a submesh by the positions of their corners. -/
def SubMesh.facets {α : Type} (s : SubMesh α) : Surface (Vec3 α) :=
  s.triangles.filterMap (Triangle.facet? s.vertices)

namespace SubMesh

variable {α : Type} {s t : SubMesh α}

theorem Indexed.three_mul_length_triangles (h : s.Indexed) : 3 * s.triangles.length = s.indexCount := by
  rw [← Triangle.length_flatten, h.flatten_triangles]
  rfl

/-- Every three indices of an indexed submesh give a facet. -/
theorem Indexed.three_mul_length_facets (h : s.Indexed) :
    3 * s.facets.length = s.indexCount := by
  rw [← h.three_mul_length_triangles]
  exact congrArg (3 * ·) (Triangle.length_facets h.below)

theorem Indexed.facets_append (hs : s.Indexed) (t : SubMesh α) :
    (s ++ t).facets = s.facets ++ t.facets := by
  unfold facets
  rw [hs.triangles_append]
  exact Triangle.facets_append hs.below t.vertices t.triangles

/-- Parts put behind a submesh one by one bring their facets one after the other. -/
theorem Indexed.facets_foldl_append {ps : List (SubMesh α)} (hs : s.Indexed)
    (hp : ∀ p ∈ ps, p.Indexed) :
    (ps.foldl (· ++ ·) s).facets = s.facets ++ ps.flatMap SubMesh.facets := by
  induction ps generalizing s with
  | nil => exact (List.append_nil _).symm
  | cons p ps ih =>
      have hps : ∀ q ∈ ps, q.Indexed := fun q hq => hp q (List.mem_cons_of_mem p hq)
      rw [List.foldl_cons, ih (hs.append (hp p List.mem_cons_self)) hps, hs.facets_append,
        List.append_assoc, List.flatMap_cons]

theorem Indexed.facets_reverseWinding (h : s.Indexed) :
    (s.reverseWindingFrom 0).facets = s.facets.map Facet.flip := by
  unfold facets
  rw [h.triangles_reverseWinding]
  exact Triangle.facets_map_flip s.vertices s.triangles

end SubMesh

/-! ### Directed edges -/

namespace Surface

variable {β γ : Type} [DecidableEq β]

/-- All directed edges, each as often as it occurs. -/
def edges (fs : Surface β) : Multiset (β × β) := ↑(fs.flatMap Facet.edges)

/-- The facets with three different corners. -/
def proper (fs : Surface β) : Surface β := fs.filter fun f => f.IsProper

/-- The directed edges of the facets with three different corners. -/
def properEdges (fs : Surface β) : Multiset (β × β) := edges fs.proper

/-- Every directed edge between different corners belongs to one facet, and its reverse to one. -/
def IsClosed (fs : Surface β) : Prop :=
  ∀ e ∈ fs.properEdges, fs.properEdges.count e = 1 ∧ fs.properEdges.count e.swap = 1

/-- Every directed edge occurs as often as its reverse. -/
def IsBalanced (fs : Surface β) : Prop :=
  ∀ p q, (edges fs).count (p, q) = (edges fs).count (q, p)

theorem isClosed_iff {fs : Surface β} :
    fs.IsClosed ↔ fs.properEdges.Nodup ∧ ∀ e ∈ fs.properEdges, e.swap ∈ fs.properEdges := by
  constructor
  · intro h
    refine ⟨Multiset.nodup_iff_count_le_one.mpr fun e => ?_, fun e he => ?_⟩
    · by_cases he : e ∈ fs.properEdges
      · exact (h e he).1.le
      · rw [Multiset.count_eq_zero_of_notMem he]
        exact Nat.zero_le 1
    · rw [← Multiset.count_pos, (h e he).2]
      exact Nat.one_pos
  · rintro ⟨hn, hs⟩ e he
    exact ⟨Multiset.count_eq_one_of_mem hn he, Multiset.count_eq_one_of_mem hn (hs e he)⟩

theorem count_map_swap (es : Multiset (β × β)) (e : β × β) :
    (es.map Prod.swap).count e = es.count e.swap := by
  conv_lhs => rw [← e.swap_swap]
  exact Multiset.count_map_eq_count' _ _ Prod.swap_injective _

theorem isBalanced_iff {fs : Surface β} :
    fs.IsBalanced ↔ (edges fs).map Prod.swap = edges fs := by
  constructor
  · intro h
    ext e
    rw [count_map_swap]
    exact h e.2 e.1
  · intro h p q
    conv_lhs => rw [← h, count_map_swap]
    rfl

omit [DecidableEq β] in
@[simp] theorem edges_nil : edges ([] : Surface β) = 0 := rfl

omit [DecidableEq β] in
theorem edges_cons (f : Facet β) (fs : Surface β) :
    edges (f :: fs) = ↑f.edges + edges fs := by
  simp [edges]

omit [DecidableEq β] in
theorem edges_append (fs gs : Surface β) : edges (fs ++ gs) = edges fs + edges gs := by
  simp [edges]

omit [DecidableEq β] in
theorem edges_pairs {ι : Type} (f g : ι → Facet β) (l : List ι) :
    edges (l.flatMap fun i => [f i, g i]) = edges (l.map f) + edges (l.map g) := by
  induction l with
  | nil => rfl
  | cons i l ih =>
      rw [List.flatMap_cons, edges_append, ih, edges_cons, edges_cons, List.map_cons, List.map_cons,
        edges_cons, edges_cons, edges_nil]
      abel

theorem properEdges_cons (f : Facet β) (fs : Surface β) :
    properEdges (f :: fs) = properEdges [f] + fs.properEdges := by
  unfold properEdges proper
  rw [← List.singleton_append, List.filter_append, edges_append]

theorem properEdges_append (fs gs : Surface β) :
    (fs ++ gs).properEdges = fs.properEdges + gs.properEdges := by
  unfold properEdges proper
  rw [List.filter_append, edges_append]

omit [DecidableEq β] in
theorem edges_map_mk {ι : Type} (f g h : ι → β) (l : List ι) :
    edges (l.map fun i => ⟨f i, g i, h i⟩) =
      ↑(l.map fun i => (f i, g i)) + ↑(l.map fun i => (g i, h i)) +
        ↑(l.map fun i => (h i, f i)) := by
  induction l with
  | nil => rfl
  | cons i l ih =>
      rw [List.map_cons, edges_cons, ih]
      simp only [List.map_cons, ← Multiset.cons_coe, Facet.edges, Multiset.coe_nil,
        ← Multiset.singleton_add, add_zero]
      abel

omit [DecidableEq β] in
theorem edges_map (g : β → γ) (fs : Surface β) :
    edges (fs.map (Facet.map g)) = (edges fs).map (Prod.map g g) := by
  induction fs with
  | nil => rfl
  | cons f fs ih =>
      rw [List.map_cons, edges_cons, edges_cons, ih, Multiset.map_add]
      rfl

theorem IsBalanced.map [DecidableEq γ] {fs : Surface β} (h : fs.IsBalanced) (g : β → γ) :
    IsBalanced (fs.map (Facet.map g)) := by
  rw [isBalanced_iff] at h ⊢
  conv_rhs => rw [edges_map, ← h, Multiset.map_map]
  rw [edges_map, Multiset.map_map]
  rfl

omit [DecidableEq β] in
/-- The edges of a surface begin at each corner as often as they end there. -/
theorem edges_map_fst (fs : Surface β) :
    (edges fs).map Prod.fst = (edges fs).map Prod.snd := by
  induction fs with
  | nil => rfl
  | cons f fs ih =>
      rw [edges_cons, Multiset.map_add, Multiset.map_add, ih, add_left_inj, Multiset.map_coe,
        Multiset.map_coe, Multiset.coe_eq_coe]
      exact @List.perm_append_comm _ [f.a] [f.b, f.c]

omit [DecidableEq β] in
/-- Turning all facets over turns all edges round. -/
theorem edges_map_flip (fs : Surface β) :
    edges (fs.map Facet.flip) = (edges fs).map Prod.swap := by
  induction fs with
  | nil => rfl
  | cons f fs ih =>
      rw [List.map_cons, edges_cons, edges_cons, ih, Multiset.map_add, add_left_inj,
        Multiset.map_coe, Multiset.coe_eq_coe]
      exact f.edges_flip_perm

omit [DecidableEq β] in
/-- The ends of the edges of a surface are corners of its facets. -/
theorem mem_of_mem_edges {fs : Surface β} {S : Set β} (hS : ∀ f ∈ fs, f.a ∈ S ∧ f.b ∈ S ∧ f.c ∈ S) :
    ∀ e ∈ edges fs, e.1 ∈ S ∧ e.2 ∈ S := by
  intro e he
  obtain ⟨f, hf, hef⟩ := List.mem_flatMap.mp (Multiset.mem_coe.mp he)
  obtain ⟨ha, hb, hc⟩ := hS f hf
  simp only [Facet.edges, List.mem_cons, List.not_mem_nil, or_false] at hef
  rcases hef with rfl | rfl | rfl
  · exact ⟨ha, hb⟩
  · exact ⟨hb, hc⟩
  · exact ⟨hc, ha⟩

omit [DecidableEq β] in
/-- The edges of surfaces listed one after the other, collected. -/
theorem edges_flatMap {ι : Type} (F : ι → Surface β) (l : List ι) :
    edges (l.flatMap F) = (↑l : Multiset ι).bind fun i => edges (F i) := by
  induction l with
  | nil => rfl
  | cons i l ih =>
      rw [List.flatMap_cons, edges_append, ih, ← Multiset.cons_coe, Multiset.cons_bind]

/-- The edges of surfaces listed one after the other add up. -/
theorem properEdges_flatMap_range (F : ℕ → Surface β) (n : ℕ) :
    properEdges ((List.range n).flatMap F) = ∑ i ∈ Finset.range n, (F i).properEdges := by
  induction n with
  | zero => rfl
  | succ n ih =>
      rw [List.range_succ, List.flatMap_append, properEdges_append, ih, Finset.sum_range_succ,
        List.flatMap_singleton]

/-- The edges of pairs of facets are those of all first and of all second ones. -/
theorem properEdges_pairs {ι : Type} (f g : ι → Facet β) (l : List ι) :
    properEdges (l.flatMap fun i => [f i, g i]) = properEdges (l.map f) + properEdges (l.map g) := by
  induction l with
  | nil => rfl
  | cons i l ih =>
      have h : (i :: l).flatMap (fun i => [f i, g i]) =
          f i :: g i :: l.flatMap fun i => [f i, g i] := rfl
      rw [h, properEdges_cons, properEdges_cons (g i), ih, List.map_cons, List.map_cons,
        properEdges_cons (f i) (l.map f), properEdges_cons (g i) (l.map g)]
      abel

/-- Facets may begin with any of their corners. -/
theorem properEdges_of_similar {fs gs : Surface β} (h : List.Forall₂ Facet.Similar fs gs) :
    fs.properEdges = gs.properEdges := by
  induction h with
  | nil => rfl
  | @cons f g fs gs hfg _ ih =>
      unfold properEdges proper at ih ⊢
      by_cases hf : f.IsProper
      · have hg := hfg.isProper_iff.mp hf
        rw [List.filter_cons_of_pos (by simpa using hf), List.filter_cons_of_pos (by simpa using hg),
          edges_cons, edges_cons, ih, Multiset.coe_eq_coe.mpr hfg.perm_edges]
      · have hg := mt hfg.isProper_iff.mpr hf
        rw [List.filter_cons_of_neg (by simpa using hf), List.filter_cons_of_neg (by simpa using hg),
          ih]

/-- Facets that are proper all or none, as a condition says. -/
theorem properEdges_map_of_iff {ι : Type} {F : ι → Facet β} {P : Prop} [Decidable P]
    (h : ∀ i, (F i).IsProper ↔ ¬P) (l : List ι) :
    properEdges (l.map F) = if P then 0 else edges (l.map F) := by
  unfold properEdges proper
  by_cases hP : P
  · rw [if_pos hP, List.filter_eq_nil_iff.mpr]
    · rfl
    · intro f hf
      obtain ⟨i, _, rfl⟩ := List.mem_map.mp hf
      simp [h i, hP]
  · rw [if_neg hP, List.filter_eq_self.mpr]
    intro f hf
    obtain ⟨i, _, rfl⟩ := List.mem_map.mp hf
    simp [h i, hP]

/-- A closed surface stays closed under a map that keeps its corners apart. -/
theorem IsClosed.map [DecidableEq γ] {fs : Surface β} (h : fs.IsClosed) {g : β → γ} {S : Set β}
    (hS : ∀ f ∈ fs, f.a ∈ S ∧ f.b ∈ S ∧ f.c ∈ S) (hg : Set.InjOn g S) :
    IsClosed (fs.map (Facet.map g)) := by
  have hproper : ∀ f ∈ fs, (f.map g).IsProper ↔ f.IsProper := by
    intro f hf
    obtain ⟨ha, hb, hc⟩ := hS f hf
    simp only [Facet.IsProper, Facet.map, ne_eq, hg.eq_iff ha hb, hg.eq_iff hb hc, hg.eq_iff hc ha]
  have hedges : properEdges (fs.map (Facet.map g)) = fs.properEdges.map (Prod.map g g) := by
    unfold properEdges proper
    rw [List.filter_map, edges_map]
    congr 2
    apply List.filter_congr
    intro f hf
    simpa using hproper f hf
  have hmem : ∀ e ∈ fs.properEdges, e.1 ∈ S ∧ e.2 ∈ S :=
    mem_of_mem_edges fun f hf => hS f (List.mem_of_mem_filter hf)
  obtain ⟨hn, hs⟩ := isClosed_iff.mp h
  rw [isClosed_iff, hedges]
  refine ⟨hn.map_on fun e he e' he' hee => ?_, fun e he => ?_⟩
  · obtain ⟨h1, h2⟩ := hmem e he
    obtain ⟨h1', h2'⟩ := hmem e' he'
    obtain ⟨hfst, hsnd⟩ := Prod.mk.injEq _ _ _ _ ▸ hee
    exact Prod.ext (hg h1 h1' hfst) (hg h2 h2' hsnd)
  · obtain ⟨e', he', rfl⟩ := Multiset.mem_map.mp he
    exact Multiset.mem_map.mpr ⟨e'.swap, hs e' he', rfl⟩

end Surface

end TriMesh
