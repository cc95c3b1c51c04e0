import Mathlib.Data.Multiset.Bind
import TriMesh.Proofs.Revolution

/-! # Closed outlines

What a whole profile sweeps out in a full turn of `n` columns is a closed surface if the profile runs
from the axis to the axis or returns to its first point, and meets itself nowhere else.

* The edges of a link come in strands: all edges from one ring to another that advance by the same
  number of columns.  The facets on a ring bring three strands (`edges_orbit`).
* Different strands share no edge and a strand repeats none, as long as strands at the axis are told
  apart by their rings alone (`Taut`, `nodup_bind_edges`).
* The strands of an `Outline` are different (`Outline.nodup_strands`) and closed under reversal
  (`Outline.reverse_mem_strands`): a ring is walked backward by the link that leaves it and forward
  by the link that arrives, all other strands are reversed within their link. -/

namespace TriMesh

/-! ### Strands -/

/-- The edges from one ring to another, or around one ring, in all columns of a full turn. -/
structure Strand (n : ℕ) where
  /-- The ring on which the edges begin. -/
  start : Vec2 ℝ
  /-- The ring on which the edges end. -/
  stop : Vec2 ℝ
  /-- By how many columns an edge advances. -/
  turn : ZMod n

namespace Strand

variable {n : ℕ}

/-- The strand walked from its end to its beginning. -/
def reverse (s : Strand n) : Strand n := ⟨s.stop, s.start, -s.turn⟩

/-- The strand touches the axis at one end at most, and does not advance if it does. -/
structure Taut (s : Strand n) : Prop where
  /-- The first radius is not negative. -/
  start_nonneg : 0 ≤ s.start.x
  /-- The last radius is not negative. -/
  stop_nonneg : 0 ≤ s.stop.x
  /-- One of the rings is no point. -/
  radial : s.start.x ≠ 0 ∨ s.stop.x ≠ 0
  /-- A strand at the axis stays in its column. -/
  straight : s.start.x = 0 ∨ s.stop.x = 0 → s.turn = 0

variable [NeZero n]

/-- The edges of the strand, one for each column. -/
noncomputable def edges (s : Strand n) : Multiset (Vec3 ℝ × Vec3 ℝ) :=
  (Finset.univ : Finset (ZMod n)).val.map fun c => (rim s.start c, rim s.stop (c + s.turn))

/-- Shifting the column of every edge permutes them. -/
theorem map_univ_add {β : Type} (f : ZMod n → β) (i : ZMod n) :
    (Finset.univ : Finset (ZMod n)).val.map (fun c => f (c + i)) =
      (Finset.univ : Finset (ZMod n)).val.map f := by
  have h : (Finset.univ : Finset (ZMod n)).val.map (fun c => c + i) = Finset.univ.val := by
    have hmap := Finset.map_univ_equiv (Equiv.addRight i)
    exact congrArg Finset.val hmap
  conv_rhs => rw [← h, Multiset.map_map]
  rfl

theorem map_range_cast {β : Type} (f : ZMod n → β) :
    (↑((List.range n).map fun c : ℕ => f (c : ZMod n)) : Multiset β) =
      (Finset.univ : Finset (ZMod n)).val.map f := by
  have h : (Multiset.range n).map (fun c : ℕ => (c : ZMod n)) =
      (Finset.univ : Finset (ZMod n)).val := by
    refine (Multiset.Nodup.ext ?_ Finset.univ.nodup).mpr fun c => ?_
    · refine (Multiset.nodup_range n).map_on fun c hc d hd hcd => ?_
      rw [Multiset.mem_range] at hc hd
      have hval := congrArg ZMod.val hcd
      rwa [ZMod.val_natCast_of_lt hc, ZMod.val_natCast_of_lt hd] at hval
    · simp only [Multiset.mem_map, Multiset.mem_range, Finset.mem_val, Finset.mem_univ, iff_true]
      exact ⟨c.val, c.val_lt, ZMod.natCast_zmod_val c⟩
  rw [← h, Multiset.map_map]
  rfl

/-- A strand at the axis has the same edges for any number of columns. -/
theorem edges_of_axis {p q : Vec2 ℝ} (h : p.x = 0 ∨ q.x = 0) (t : ZMod n) :
    (⟨p, q, t⟩ : Strand n).edges = (⟨p, q, 0⟩ : Strand n).edges := by
  unfold edges
  rcases h with hp | hq
  · rw [← map_univ_add (fun c => (rim p c, rim q (c + 0))) t]
    refine Multiset.map_congr rfl fun c _ => ?_
    rw [rim_eq_of_axis hp (c + t) c, add_zero]
  · refine Multiset.map_congr rfl fun c _ => ?_
    rw [rim_eq_of_axis hq (c + 0) (c + t)]

theorem mem_edges {s : Strand n} {e : Vec3 ℝ × Vec3 ℝ} :
    e ∈ s.edges ↔ ∃ c, (rim s.start c, rim s.stop (c + s.turn)) = e := by
  simp [edges]

theorem swap_mem_edges_reverse {s : Strand n} {e : Vec3 ℝ × Vec3 ℝ} (h : e ∈ s.edges) :
    e.swap ∈ s.reverse.edges := by
  obtain ⟨c, rfl⟩ := mem_edges.mp h
  refine mem_edges.mpr ⟨c + s.turn, ?_⟩
  simp [reverse]

/-- An edge of a taut strand tells the strand and the column. -/
theorem Taut.eq_of_edge_eq {s t : Strand n} (hs : s.Taut) (ht : t.Taut) {c d : ZMod n}
    (h : (rim s.start c, rim s.stop (c + s.turn)) = (rim t.start d, rim t.stop (d + t.turn))) :
    s = t ∧ c = d := by
  obtain ⟨h1, h2⟩ := Prod.mk.injEq _ _ _ _ ▸ h
  obtain ⟨hstart, hc⟩ := (rim_eq_iff hs.start_nonneg ht.start_nonneg _ _).mp h1
  obtain ⟨hstop, hd⟩ := (rim_eq_iff hs.stop_nonneg ht.stop_nonneg _ _).mp h2
  by_cases h0 : s.start.x = 0 ∨ s.stop.x = 0
  · have hts : s.turn = 0 := hs.straight h0
    have htt : t.turn = 0 := ht.straight (by rwa [← hstart, ← hstop])
    have hcd : c = d := by
      rw [hts, htt, add_zero, add_zero] at hd
      rcases hs.radial with hr | hr
      · exact hc.resolve_left hr
      · exact hd.resolve_left hr
    refine ⟨?_, hcd⟩
    rcases s with ⟨_, _, _⟩
    rcases t with ⟨_, _, _⟩
    simp only at hstart hstop hts htt
    rw [hstart, hstop, hts, htt]
  · have hcd : c = d := hc.resolve_left fun hx => h0 (Or.inl hx)
    have hturn : c + s.turn = d + t.turn := hd.resolve_left fun hx => h0 (Or.inr hx)
    rw [hcd] at hturn
    refine ⟨?_, hcd⟩
    rcases s with ⟨_, _, _⟩
    rcases t with ⟨_, _, _⟩
    simp only at hstart hstop hturn
    rw [hstart, hstop, add_left_cancel hturn]

/-- Different taut strands share no edge, and none repeats one. -/
theorem nodup_bind_edges {T : List (Strand n)} (hT : T.Nodup) (ht : ∀ s ∈ T, s.Taut) :
    ((T : Multiset (Strand n)).bind edges).Nodup := by
  rw [Multiset.nodup_bind]
  refine ⟨fun s hs => ?_, T, rfl, ?_⟩
  · refine Multiset.Nodup.map_on (fun c _ d _ h => ?_) Finset.univ.nodup
    exact ((ht s hs).eq_of_edge_eq (ht s hs) h).2
  · refine hT.imp_of_mem fun {s t} hs' ht' hne => ?_
    refine Multiset.disjoint_left.mpr fun {e} he he' => hne ?_
    obtain ⟨c, rfl⟩ := mem_edges.mp he
    obtain ⟨d, hd⟩ := mem_edges.mp he'
    exact ((ht s hs').eq_of_edge_eq (ht t ht') hd.symm).1

/-- The facets that a triangle of places sweeps out have three strands. -/
theorem edges_orbit (p q r : Vec2 ℝ) (i j k : ZMod n) :
    Surface.edges ((List.range n).map fun c : ℕ =>
        (⟨rim p ((c : ZMod n) + i), rim q ((c : ZMod n) + j), rim r ((c : ZMod n) + k)⟩ :
          Facet (Vec3 ℝ))) =
      (⟨p, q, j - i⟩ : Strand n).edges + (⟨q, r, k - j⟩ : Strand n).edges +
        (⟨r, p, i - k⟩ : Strand n).edges := by
  have hstrand (p q : Vec2 ℝ) (i j : ZMod n) :
      (↑((List.range n).map fun c : ℕ => (rim p ((c : ZMod n) + i), rim q ((c : ZMod n) + j))) :
        Multiset (Vec3 ℝ × Vec3 ℝ)) = (⟨p, q, j - i⟩ : Strand n).edges := by
    rw [map_range_cast fun c => (rim p (c + i), rim q (c + j))]
    unfold edges
    rw [← map_univ_add (fun c => (rim p c, rim q (c + (j - i)))) i]
    refine Multiset.map_congr rfl fun c _ => ?_
    rw [add_assoc, add_sub_cancel]
  rw [Surface.edges_map_mk, hstrand, hstrand, hstrand]

end Strand

/-! ### The strands of a link -/

namespace Link

variable (l : Link ℝ) (n : ℕ)

/-- By how many columns the diagonal advances on its way up. -/
def slant : ZMod n := if l.rising then 1 else -1

/-- The strands of the proper facets of the link: around its two rings, straight from ring to ring and
along the diagonals.  A point of the profile on the axis has no ring and no diagonals. -/
noncomputable def strands : List (Strand n) :=
  (if l.lower.x = 0 then [] else [⟨l.lower, l.lower, -1⟩]) ++
    (if l.upper.x = 0 then [] else [⟨l.upper, l.upper, 1⟩]) ++
    (if l.lower.x = 0 ∧ l.upper.x = 0 then [] else [⟨l.lower, l.upper, 0⟩, ⟨l.upper, l.lower, 0⟩]) ++
    (if l.lower.x = 0 ∨ l.upper.x = 0 then []
      else [⟨l.lower, l.upper, l.slant n⟩, ⟨l.upper, l.lower, -l.slant n⟩])

variable {l n}

theorem mem_strands_iff {s : Strand n} :
    s ∈ l.strands n ↔
      l.lower.x ≠ 0 ∧ s = ⟨l.lower, l.lower, -1⟩ ∨ l.upper.x ≠ 0 ∧ s = ⟨l.upper, l.upper, 1⟩ ∨
        (l.lower.x ≠ 0 ∨ l.upper.x ≠ 0) ∧ (s = ⟨l.lower, l.upper, 0⟩ ∨ s = ⟨l.upper, l.lower, 0⟩) ∨
        (l.lower.x ≠ 0 ∧ l.upper.x ≠ 0) ∧
          (s = ⟨l.lower, l.upper, l.slant n⟩ ∨ s = ⟨l.upper, l.lower, -l.slant n⟩) := by
  unfold strands
  by_cases hp : l.lower.x = 0 <;> by_cases hq : l.upper.x = 0 <;> simp [hp, hq, or_assoc]

theorem taut_of_mem_strands (hp : 0 ≤ l.lower.x) (hq : 0 ≤ l.upper.x) :
    ∀ s ∈ l.strands n, s.Taut := by
  intro s hs
  rcases mem_strands_iff.mp hs with ⟨h, rfl⟩ | ⟨h, rfl⟩ | ⟨h, rfl | rfl⟩ | ⟨h, rfl | rfl⟩
  · exact ⟨hp, hp, Or.inl h, fun h0 => absurd (or_self_iff.mp h0) h⟩
  · exact ⟨hq, hq, Or.inl h, fun h0 => absurd (or_self_iff.mp h0) h⟩
  · exact ⟨hp, hq, h, fun _ => rfl⟩
  · exact ⟨hq, hp, h.symm, fun _ => rfl⟩
  · exact ⟨hp, hq, Or.inl h.1, fun h0 => absurd h0 (by tauto)⟩
  · exact ⟨hq, hp, Or.inl h.2, fun h0 => absurd h0 (by tauto)⟩

/-- A strand around a ring walks the lower one backward or the upper one forward. -/
theorem ring_of_mem_strands (hl : l.lower ≠ l.upper) {s : Strand n} (hs : s ∈ l.strands n)
    (h : s.start = s.stop) : s.start = l.lower ∧ s.turn = -1 ∨ s.start = l.upper ∧ s.turn = 1 := by
  rcases mem_strands_iff.mp hs with ⟨_, rfl⟩ | ⟨_, rfl⟩ | ⟨_, rfl | rfl⟩ | ⟨_, rfl | rfl⟩
  · exact Or.inl ⟨rfl, rfl⟩
  · exact Or.inr ⟨rfl, rfl⟩
  · exact absurd h hl
  · exact absurd h hl.symm
  · exact absurd h hl
  · exact absurd h hl.symm

/-- Any other strand joins the two rings, and its reverse is a strand of the same link. -/
theorem crossing_of_mem_strands {s : Strand n} (hs : s ∈ l.strands n) (h : s.start ≠ s.stop) :
    (s.start = l.lower ∧ s.stop = l.upper ∨ s.start = l.upper ∧ s.stop = l.lower) ∧
      s.reverse ∈ l.strands n := by
  simp only [mem_strands_iff (s := s.reverse)]
  rcases mem_strands_iff.mp hs with ⟨_, rfl⟩ | ⟨_, rfl⟩ | ⟨h0, rfl | rfl⟩ | ⟨h0, rfl | rfl⟩
  · exact absurd rfl h
  · exact absurd rfl h
  · exact ⟨Or.inl ⟨rfl, rfl⟩, Or.inr (Or.inr (Or.inl ⟨h0, Or.inr (by simp [Strand.reverse])⟩))⟩
  · exact ⟨Or.inr ⟨rfl, rfl⟩, Or.inr (Or.inr (Or.inl ⟨h0, Or.inl (by simp [Strand.reverse])⟩))⟩
  · exact ⟨Or.inl ⟨rfl, rfl⟩, Or.inr (Or.inr (Or.inr ⟨h0, Or.inr rfl⟩))⟩
  · exact ⟨Or.inr ⟨rfl, rfl⟩, Or.inr (Or.inr (Or.inr ⟨h0, Or.inl (by simp [Strand.reverse])⟩))⟩

theorem nodup_strands (hl : l.lower ≠ l.upper) (hn : 3 ≤ n) : (l.strands n).Nodup := by
  have : Fact (1 < n) := ⟨by omega⟩
  have : Fact (2 < n) := ⟨hn⟩
  have hslant : l.slant n ≠ 0 := by
    unfold slant
    cases l.rising <;> simp
  unfold strands
  by_cases hp : l.lower.x = 0 <;> by_cases hq : l.upper.x = 0 <;>
    simp [hp, hq, hl, hl.symm, hslant, hslant.symm]

variable [NeZero n]

theorem properEdges_onLower (hl : l.lower ≠ l.upper) (hp : 0 ≤ l.lower.x) (hq : 0 ≤ l.upper.x)
    (hn : 2 ≤ n) :
    Surface.properEdges ((List.range n).map (l.onLower (Scalar.tau : ℝ) n)) =
      if l.lower.x = 0 then 0
      else (⟨l.lower, l.lower, -1⟩ : Strand n).edges +
        if l.rising then (⟨l.lower, l.upper, l.slant n⟩ : Strand n).edges +
          (⟨l.upper, l.lower, 0⟩ : Strand n).edges
        else (⟨l.upper, l.lower, -l.slant n⟩ : Strand n).edges +
          (⟨l.lower, l.upper, 0⟩ : Strand n).edges := by
  rw [Surface.properEdges_map_of_iff (isProper_onLower_iff hl hp hq hn)]
  congr 1
  simp only [funext (onLower_tau (n := n) l), slant]
  cases l.rising with
  | false =>
      have horbit := Strand.edges_orbit (n := n) l.upper l.lower l.lower 0 1 0
      simp only [add_zero, sub_zero, zero_sub] at horbit
      simp only [Bool.false_eq_true, if_false, neg_neg, horbit]
      abel
  | true =>
      have horbit := Strand.edges_orbit (n := n) l.lower l.lower l.upper 1 0 1
      simp only [add_zero, sub_zero, zero_sub, sub_self] at horbit
      simp only [if_true, horbit]
      abel

theorem properEdges_onUpper (hl : l.lower ≠ l.upper) (hp : 0 ≤ l.lower.x) (hq : 0 ≤ l.upper.x)
    (hn : 2 ≤ n) :
    Surface.properEdges ((List.range n).map (l.onUpper (Scalar.tau : ℝ) n)) =
      if l.upper.x = 0 then 0
      else (⟨l.upper, l.upper, 1⟩ : Strand n).edges +
        if l.rising then (⟨l.upper, l.lower, -l.slant n⟩ : Strand n).edges +
          (⟨l.lower, l.upper, 0⟩ : Strand n).edges
        else (⟨l.lower, l.upper, l.slant n⟩ : Strand n).edges +
          (⟨l.upper, l.lower, 0⟩ : Strand n).edges := by
  rw [Surface.properEdges_map_of_iff (isProper_onUpper_iff hl hp hq hn)]
  congr 1
  simp only [funext (onUpper_tau (n := n) l), slant]
  cases l.rising with
  | false =>
      have horbit := Strand.edges_orbit (n := n) l.upper l.lower l.upper 1 1 0
      simp only [add_zero, sub_zero, zero_sub, sub_self] at horbit
      simp only [Bool.false_eq_true, if_false, horbit]
      abel
  | true =>
      have horbit := Strand.edges_orbit (n := n) l.lower l.upper l.upper 0 0 1
      simp only [add_zero, sub_zero, zero_sub, sub_self] at horbit
      simp only [if_true, horbit]
      abel

/-- The proper facets of a link in a full turn have exactly the edges of its strands. -/
theorem properEdges_eq_bind (hl : l.lower ≠ l.upper) (hp : 0 ≤ l.lower.x) (hq : 0 ≤ l.upper.x)
    (hn : 2 ≤ n) :
    (l.facets (Scalar.tau : ℝ) n).properEdges =
      (↑(l.strands n) : Multiset (Strand n)).bind Strand.edges := by
  rw [properEdges_facets, properEdges_onLower hl hp hq hn, properEdges_onUpper hl hp hq hn]
  unfold strands
  by_cases hp0 : l.lower.x = 0
  · have hout (t : ZMod n) := Strand.edges_of_axis (q := l.upper) (Or.inl hp0) t
    have hin (t : ZMod n) := Strand.edges_of_axis (p := l.upper) (Or.inr hp0) t
    by_cases hq0 : l.upper.x = 0
    · simp [hp0, hq0]
    · cases l.rising with
      | false => simp [hp0, hq0, hout, ← Multiset.cons_coe]
      | true =>
          simp [hp0, hq0, hin, ← Multiset.cons_coe]
          abel
  · by_cases hq0 : l.upper.x = 0
    · have hin (t : ZMod n) := Strand.edges_of_axis (p := l.lower) (Or.inr hq0) t
      have hout (t : ZMod n) := Strand.edges_of_axis (q := l.lower) (Or.inl hq0) t
      cases l.rising with
      | false =>
          simp [hp0, hq0, hout, ← Multiset.cons_coe]
          abel
      | true => simp [hp0, hq0, hin, ← Multiset.cons_coe]
    · cases l.rising with
      | false =>
          simp [hp0, hq0, ← Multiset.cons_coe]
          abel
      | true =>
          simp [hp0, hq0, ← Multiset.cons_coe]
          abel

end Link

/-! ### Outlines -/

/-- A profile that runs from the axis to the axis or returns to its first point, and meets itself
nowhere else. -/
structure Outline where
  /-- Number of links. -/
  size : ℕ
  /-- The points of the profile, of which those up to `size` count. -/
  point : ℕ → Vec2 ℝ
  /-- Which way the diagonals of a link run. -/
  rising : ℕ → Bool
  /-- No radius is negative. -/
  nonneg : ∀ i ≤ size, 0 ≤ (point i).x
  /-- Only the last point may be another one, the first, and then there are three others at least. -/
  eq_of_point_eq : ∀ i j, i < j → j ≤ size → point i = point j → i = 0 ∧ j = size ∧ 3 ≤ size
  /-- Both ends are on the axis, or they are one point. -/
  ends : point 0 = point size ∨ (point 0).x = 0 ∧ (point size).x = 0

namespace Outline

variable (o : Outline) (n : ℕ)

/-- The link from a point to the next one. -/
def link (i : ℕ) : Link ℝ := ⟨o.point i, o.point (i + 1), o.rising i⟩

/-- The strands of all links. -/
noncomputable def strands : List (Strand n) :=
  (List.range o.size).flatMap fun i => (o.link i).strands n

variable {o n}

theorem link_eq {i : ℕ} {p q : Vec2 ℝ} {rising : Bool} (hp : o.point i = p)
    (hq : o.point (i + 1) = q) (hr : o.rising i = rising) : o.link i = ⟨p, q, rising⟩ := by
  rw [link, hp, hq, hr]

theorem lower_ne_upper {i : ℕ} (hi : i < o.size) : (o.link i).lower ≠ (o.link i).upper := by
  intro h
  have := o.eq_of_point_eq i (i + 1) (Nat.lt_succ_self i) hi h
  omega

theorem lower_nonneg {i : ℕ} (hi : i < o.size) : 0 ≤ (o.link i).lower.x := o.nonneg i hi.le

theorem upper_nonneg {i : ℕ} (hi : i < o.size) : 0 ≤ (o.link i).upper.x := o.nonneg (i + 1) hi

theorem mem_strands {s : Strand n} :
    s ∈ o.strands n ↔ ∃ i < o.size, s ∈ (o.link i).strands n := by
  simp [strands]

theorem taut_of_mem_strands {s : Strand n} (hs : s ∈ o.strands n) : s.Taut := by
  obtain ⟨i, hi, hs⟩ := mem_strands.mp hs
  exact Link.taut_of_mem_strands (lower_nonneg hi) (upper_nonneg hi) s hs

/-- Two links neither leave one point, nor arrive at one, nor join the same points. -/
theorem points_ne {i j : ℕ} (hij : i < j) (hj : j < o.size) :
    o.point i ≠ o.point j ∧ o.point (i + 1) ≠ o.point (j + 1) ∧
      (o.point i = o.point (j + 1) → o.point (i + 1) ≠ o.point j) := by
  refine ⟨fun h => ?_, fun h => ?_, fun h h' => ?_⟩
  · have := o.eq_of_point_eq i j hij hj.le h
    omega
  · have := o.eq_of_point_eq (i + 1) (j + 1) (by omega) hj h
    omega
  · obtain ⟨rfl, hsize, hthree⟩ := o.eq_of_point_eq i (j + 1) (by omega) hj h
    have := o.eq_of_point_eq 1 j (by omega) hj.le h'
    omega

/-- Two links of an outline have no strand in common. -/
theorem disjoint_strands (hn : 3 ≤ n) {i j : ℕ} (hij : i < j) (hj : j < o.size) :
    List.Disjoint ((o.link i).strands n) ((o.link j).strands n) := by
  have : Fact (2 < n) := ⟨hn⟩
  have hne := ZMod.neg_one_ne_one (n := n)
  have hi : i < o.size := hij.trans hj
  obtain ⟨hleave, harrive, hjoin⟩ := o.points_ne hij hj
  intro s hsi hsj
  -- around a ring, two links at the ring walk it in different directions; else the ends tell the link
  by_cases h : s.start = s.stop
  · rcases Link.ring_of_mem_strands (lower_ne_upper hi) hsi h with ⟨hs, ht⟩ | ⟨hs, ht⟩ <;>
      rcases Link.ring_of_mem_strands (lower_ne_upper hj) hsj h with ⟨hs', ht'⟩ | ⟨hs', ht'⟩
    · exact hleave (hs.symm.trans hs')
    · exact hne (ht.symm.trans ht')
    · exact hne (ht'.symm.trans ht)
    · exact harrive (hs.symm.trans hs')
  · rcases (Link.crossing_of_mem_strands hsi h).1 with ⟨hs, ht⟩ | ⟨hs, ht⟩ <;>
      rcases (Link.crossing_of_mem_strands hsj h).1 with ⟨hs', ht'⟩ | ⟨hs', ht'⟩
    · exact hleave (hs.symm.trans hs')
    · exact hjoin (hs.symm.trans hs') (ht.symm.trans ht')
    · exact hjoin (ht.symm.trans ht') (hs.symm.trans hs')
    · exact harrive (hs.symm.trans hs')

theorem nodup_strands (hn : 3 ≤ n) : (o.strands n).Nodup := by
  unfold strands
  rw [List.nodup_flatMap]
  refine ⟨fun i hi => Link.nodup_strands (lower_ne_upper (List.mem_range.mp hi)) hn, ?_⟩
  refine List.pairwise_lt_range.imp_of_mem fun {i j} _ hj hij => ?_
  exact disjoint_strands hn hij (List.mem_range.mp hj)

/-- A ring is walked backward by the link that leaves it and forward by the link that arrives; all
other strands are reversed within their link. -/
theorem reverse_mem_strands {s : Strand n} (hs : s ∈ o.strands n) : s.reverse ∈ o.strands n := by
  obtain ⟨i, hi, hsi⟩ := mem_strands.mp hs
  by_cases h : s.start = s.stop
  · rcases Link.mem_strands_iff.mp hsi with ⟨h0, rfl⟩ | ⟨h0, rfl⟩ | ⟨_, rfl | rfl⟩ | ⟨_, rfl | rfl⟩
    · -- the lower ring of link `i`, at which link `i - 1` or the last link arrives
      obtain ⟨j, hj, hjp⟩ : ∃ j < o.size, o.point (j + 1) = o.point i := by
        cases i with
        | zero =>
            have hends := o.ends.resolve_right fun he => h0 he.1
            refine ⟨o.size - 1, by omega, ?_⟩
            rw [hends, Nat.sub_add_cancel (by omega)]
        | succ k => exact ⟨k, by omega, rfl⟩
      refine mem_strands.mpr ⟨j, hj, Link.mem_strands_iff.mpr (Or.inr (Or.inl ⟨?_, ?_⟩))⟩
      · simpa only [link, hjp] using h0
      · simp only [Strand.reverse, link, hjp, neg_neg]
    · -- the upper ring of link `i`, which link `i + 1` or the first link leaves
      obtain ⟨j, hj, hjp⟩ : ∃ j < o.size, o.point j = o.point (i + 1) := by
        by_cases hlast : i + 1 = o.size
        · have hends := o.ends.resolve_right fun he => h0 (by simpa only [link, hlast] using he.2)
          exact ⟨0, by omega, by rw [hends, hlast]⟩
        · exact ⟨i + 1, by omega, rfl⟩
      refine mem_strands.mpr ⟨j, hj, Link.mem_strands_iff.mpr (Or.inl ⟨?_, ?_⟩)⟩
      · simpa only [link, hjp] using h0
      · simp only [Strand.reverse, link, hjp]
    · exact absurd h (lower_ne_upper hi)
    · exact absurd h (lower_ne_upper hi).symm
    · exact absurd h (lower_ne_upper hi)
    · exact absurd h (lower_ne_upper hi).symm
  · exact mem_strands.mpr ⟨i, hi, (Link.crossing_of_mem_strands hsi h).2⟩

/-- The edges that the links of an outline sweep out, added up. -/
noncomputable def sweptEdges (o : Outline) (n : ℕ) : Multiset (Vec3 ℝ × Vec3 ℝ) :=
  ∑ i ∈ Finset.range o.size, ((o.link i).facets (Scalar.tau : ℝ) n).properEdges

theorem sweptEdges_eq_bind [NeZero n] (hn : 3 ≤ n) :
    o.sweptEdges n = (↑(o.strands n) : Multiset (Strand n)).bind Strand.edges := by
  have hlinks : o.sweptEdges n = ∑ i ∈ Finset.range o.size,
      (↑((o.link i).strands n) : Multiset (Strand n)).bind Strand.edges := by
    refine Finset.sum_congr rfl fun i hi => ?_
    have hi' := Finset.mem_range.mp hi
    exact Link.properEdges_eq_bind (lower_ne_upper hi') (lower_nonneg hi') (upper_nonneg hi')
      (by omega)
  rw [hlinks]
  unfold strands
  induction o.size with
  | zero => rfl
  | succ m ih =>
      rw [Finset.sum_range_succ, ih, List.range_succ, List.flatMap_append, List.flatMap_singleton,
        ← Multiset.coe_add, Multiset.add_bind]

/-- **A surface with the edges of an outline is closed.** -/
theorem isClosed (hn : 3 ≤ n) {fs : Surface (Vec3 ℝ)} (h : fs.properEdges = o.sweptEdges n) :
    fs.IsClosed := by
  have : NeZero n := ⟨by omega⟩
  rw [Surface.isClosed_iff, h, sweptEdges_eq_bind hn]
  refine ⟨Strand.nodup_bind_edges (nodup_strands hn) fun s hs => taut_of_mem_strands hs, ?_⟩
  intro e he
  obtain ⟨s, hs, hes⟩ := Multiset.mem_bind.mp he
  exact Multiset.mem_bind.mpr
    ⟨s.reverse, reverse_mem_strands hs, Strand.swap_mem_edges_reverse hes⟩

end Outline

end TriMesh
