import TriMesh.Proofs.Reals
import TriMesh.Polygon

/-! # Edges across a ray

Which edges of a closed path the ray from a point crosses, read with exact scalars.

* An edge spans a height if it rises or falls past it; a crossed edge is one that spans the height of
  the point and meets it to the right of the point (`crosses_iff`).  Where it meets the height is a point
  between its ends (`exists_weights`), so that what holds of both ends on one side of a line holds of it
  (`leftOf_meet_nonneg`).
* A closed path rises past a height as often as it falls past it (`card_rises_eq_card_falls`).
* A point outside the box around all corners is therefore outside the path: no edge spans its height, or
  all that do are on one side of it (`contains_eq_false_of_not_inBox`). -/

namespace TriMesh

namespace Edge

/-! ### Heights -/

/-- The edge goes up past a height, which counts as above an end that is at it. -/
def Rises (e : Edge ℝ) (h : ℝ) : Prop := e.start.y ≤ h ∧ h < e.stop.y

/-- The edge goes down past a height, which counts as above an end that is at it. -/
def Falls (e : Edge ℝ) (h : ℝ) : Prop := e.stop.y ≤ h ∧ h < e.start.y

/-- The ends of the edge are on different sides of a height. -/
def Spans (e : Edge ℝ) (h : ℝ) : Prop := e.Rises h ∨ e.Falls h

/-- Where the line of the edge meets a height. -/
noncomputable def meet (e : Edge ℝ) (h : ℝ) : Vec2 ℝ :=
  ⟨e.start.x + (h - e.start.y) / (e.stop.y - e.start.y) * (e.stop.x - e.start.x), h⟩

/-- Twice the signed area of the edge with a point, positive if the point is to the left. -/
def leftOf {α : Type} [Scalar α] (e : Edge α) (p : Vec2 α) : α :=
  (e.stop - e.start).perpDot (p - e.start)

noncomputable instance (e : Edge ℝ) (h : ℝ) : Decidable (e.Rises h) :=
  inferInstanceAs (Decidable (_ ∧ _))

noncomputable instance (e : Edge ℝ) (h : ℝ) : Decidable (e.Falls h) :=
  inferInstanceAs (Decidable (_ ∧ _))

noncomputable instance (e : Edge ℝ) (h : ℝ) : Decidable (e.Spans h) :=
  inferInstanceAs (Decidable (_ ∨ _))

variable {e : Edge ℝ} {h : ℝ}

@[simp] theorem meet_y (e : Edge ℝ) (h : ℝ) : (e.meet h).y = h := rfl

theorem Rises.not_falls (he : e.Rises h) : ¬e.Falls h :=
  fun hf => (he.1.trans_lt hf.2).false

theorem Rises.lt (he : e.Rises h) : e.start.y < e.stop.y := he.1.trans_lt he.2

theorem Falls.lt (he : e.Falls h) : e.stop.y < e.start.y := he.1.trans_lt he.2

theorem Spans.ne (he : e.Spans h) : e.stop.y - e.start.y ≠ 0 := by
  rcases he with he | he
  · exact sub_ne_zero.mpr he.lt.ne'
  · exact sub_ne_zero.mpr he.lt.ne

theorem spans_iff : e.Spans h ↔ (h < e.start.y ↔ ¬h < e.stop.y) := by
  simp only [Spans, Rises, Falls, ← not_lt]
  tauto

/-- The crossed edges span the height of the point and meet it to the right of the point. -/
theorem crosses_iff (e : Edge ℝ) (p : Vec2 ℝ) :
    e.crosses p = true ↔ e.Spans p.y ∧ p.x < (e.meet p.y).x := by
  rw [spans_iff, crosses, Bool.and_eq_true, decide_eq_true_iff]
  refine and_congr_left' ?_
  by_cases hstart : p.y < e.start.y <;> by_cases hstop : p.y < e.stop.y <;> simp [hstart, hstop]

/-! ### Points between the ends -/

/-- Where an edge meets a height that it spans is a point between its ends, and not the end of an edge
that rises. -/
theorem exists_weights (he : e.Spans h) :
    ∃ s t : ℝ, 0 ≤ s ∧ 0 ≤ t ∧ s + t = 1 ∧ (e.Rises h → 0 < s) ∧
      e.meet h = e.start * s + e.stop * t := by
  have hne := he.ne
  have hcoordinate (a b t : ℝ) : a * (1 - t) + b * t = a + t * (b - a) := by ring
  refine ⟨1 - (h - e.start.y) / (e.stop.y - e.start.y), (h - e.start.y) / (e.stop.y - e.start.y),
    ?_, ?_, sub_add_cancel _ _, ?_, ?_⟩
  · rw [sub_nonneg]
    rcases he with he | he
    · rw [div_le_one (sub_pos.mpr he.lt)]
      linarith [he.2]
    · rw [div_le_one_of_neg (sub_neg.mpr he.lt)]
      linarith [he.1]
  · rcases he with he | he
    · exact div_nonneg (sub_nonneg.mpr he.1) (sub_pos.mpr he.lt).le
    · exact div_nonneg_of_nonpos (by linarith [he.2]) (sub_neg.mpr he.lt).le
  · intro hrises
    rw [sub_pos, div_lt_one (sub_pos.mpr hrises.lt)]
    linarith [hrises.2]
  · apply Vec2.ext
    · exact (hcoordinate _ _ _).symm
    · change h = e.start.y * _ + e.stop.y * _
      rw [hcoordinate, div_mul_cancel₀ _ hne, add_sub_cancel]

theorem leftOf_between (d : Edge ℝ) (p q : Vec2 ℝ) {s t : ℝ} (hst : s + t = 1) :
    d.leftOf (p * s + q * t) = s * d.leftOf p + t * d.leftOf q := by
  simp only [leftOf, Vec2.perpDot_eq, Vec2.sub_x, Vec2.sub_y, Vec2.add_x, Vec2.add_y, Vec2.mul_x,
    Vec2.mul_y]
  linear_combination
    ((d.stop.x - d.start.x) * d.start.y - (d.stop.y - d.start.y) * d.start.x) * hst

/-- What both ends of an edge are not on the wrong side of, no point of the edge is. -/
theorem leftOf_meet_nonneg {d : Edge ℝ} {sense : ℝ} (he : e.Spans h)
    (hstart : 0 ≤ sense * d.leftOf e.start) (hstop : 0 ≤ sense * d.leftOf e.stop) :
    0 ≤ sense * d.leftOf (e.meet h) := by
  obtain ⟨s, t, hs, ht, hst, _, hmeet⟩ := exists_weights he
  calc 0 ≤ s * (sense * d.leftOf e.start) + t * (sense * d.leftOf e.stop) :=
        add_nonneg (mul_nonneg hs hstart) (mul_nonneg ht hstop)
    _ = sense * d.leftOf (e.meet h) := by
        rw [hmeet, leftOf_between d _ _ hst]
        ring

/-- A rising edge that meets a line begins on it, if both ends are on one side of it. -/
theorem leftOf_start_nonpos {d : Edge ℝ} {sense : ℝ} (he : e.Rises h)
    (hstop : 0 ≤ sense * d.leftOf e.stop) (hmeet : sense * d.leftOf (e.meet h) ≤ 0) :
    sense * d.leftOf e.start ≤ 0 := by
  obtain ⟨s, t, _, ht, hst, hs, heq⟩ := exists_weights (Or.inl he)
  rw [heq, leftOf_between d _ _ hst] at hmeet
  by_contra hpos
  have hs' := mul_pos (hs he) (not_le.mp hpos)
  have ht' := mul_nonneg ht hstop
  linarith

/-- Of two points at one height the one to the left of a rising edge comes first. -/
theorem leftOf_eq (hne : e.stop.y - e.start.y ≠ 0) (p : Vec2 ℝ) :
    e.leftOf p = (e.stop.y - e.start.y) * ((e.meet p.y).x - p.x) := by
  simp only [leftOf, meet, Vec2.perpDot_eq, Vec2.sub_x, Vec2.sub_y]
  field_simp
  ring

/-- Along a height the points on one side of a line have no gap. -/
theorem leftOf_nonneg_of_between {d : Edge ℝ} {sense : ℝ} {a b p : Vec2 ℝ} (ha : a.y = p.y)
    (hb : b.y = p.y) (hax : a.x ≤ p.x) (hbx : p.x ≤ b.x) (hda : 0 ≤ sense * d.leftOf a)
    (hdb : 0 ≤ sense * d.leftOf b) : 0 ≤ sense * d.leftOf p := by
  have hmove {q : Vec2 ℝ} (hq : q.y = p.y) : sense * d.leftOf q +
      sense * (d.stop.y - d.start.y) * (q.x - p.x) = sense * d.leftOf p := by
    simp only [leftOf, Vec2.perpDot_eq, Vec2.sub_x, Vec2.sub_y, hq]
    ring
  rcases le_total 0 (sense * (d.stop.y - d.start.y)) with hslope | hslope
  · rw [← hmove hb]
    exact add_nonneg hdb (mul_nonneg hslope (sub_nonneg.mpr hbx))
  · rw [← hmove ha]
    exact add_nonneg hda (mul_nonneg_of_nonpos_of_nonpos hslope (sub_nonpos.mpr hax))

/-- An edge is met between the first components of its ends. -/
theorem meet_x_mem (he : e.Spans h) :
    min e.start.x e.stop.x ≤ (e.meet h).x ∧ (e.meet h).x ≤ max e.start.x e.stop.x := by
  obtain ⟨s, t, hs, ht, hst, _, hmeet⟩ := exists_weights he
  have hsplit (a : ℝ) : a = a * s + a * t := by rw [← mul_add, hst, mul_one]
  rw [hmeet]
  constructor
  · calc min e.start.x e.stop.x
        = min e.start.x e.stop.x * s + min e.start.x e.stop.x * t := hsplit _
      _ ≤ e.start.x * s + e.stop.x * t := by
          gcongr
          · exact min_le_left _ _
          · exact min_le_right _ _
  · calc e.start.x * s + e.stop.x * t
        ≤ max e.start.x e.stop.x * s + max e.start.x e.stop.x * t := by
          gcongr
          · exact le_max_left _ _
          · exact le_max_right _ _
      _ = max e.start.x e.stop.x := (hsplit _).symm

end Edge

/-! ### Around a path -/

/-- A sum over a full turn does not depend on where the turn begins. -/
theorem sum_range_add_of_periodic {β : Type} [AddCommMonoid β] {f : ℕ → β} {n : ℕ}
    (hf : Function.Periodic f n) (i : ℕ) :
    ∑ k ∈ Finset.range n, f (i + k) = ∑ k ∈ Finset.range n, f k := by
  induction i with
  | zero => simp only [Nat.zero_add]
  | succ i ih =>
      rw [← ih]
      cases n with
      | zero => rfl
      | succ n =>
          have hmove (k : ℕ) : f (i + 1 + k) = f (i + (k + 1)) := by
            rw [Nat.add_assoc, Nat.add_comm 1]
          have hfirst : f (i + (n + 1)) = f (i + 0) := hf i
          rw [Finset.sum_congr rfl fun k _ => hmove k, Finset.sum_range_succ, hfirst]
          exact (Finset.sum_range_succ' (fun k => f (i + k)) n).symm

namespace Path

section corners
variable {α : Type} [Scalar α]

/-- The corners of a closed path, over and over again. -/
def corner (path : Path α) (i : ℕ) : Vec2 α := path[i % path.length]?.getD 0

/-- The edges of a closed path, over and over again. -/
def side (path : Path α) (i : ℕ) : Edge α := ⟨path.corner i, path.corner (i + 1)⟩

theorem periodic_corner (path : Path α) : Function.Periodic path.corner path.length := by
  intro i
  rw [corner, corner, Nat.add_mod_right]

theorem periodic_side (path : Path α) : Function.Periodic path.side path.length := by
  intro i
  rw [side, side, Nat.add_right_comm, periodic_corner path, periodic_corner path]

theorem getElem?_eq_corner {path : Path α} {i : ℕ} (hi : i < path.length) :
    path[i]? = some (path.corner i) := by
  rw [corner, Nat.mod_eq_of_lt hi, List.getElem?_eq_getElem hi, Option.getD_some]

theorem corner_mem {path : Path α} (hpath : path ≠ []) (i : ℕ) : path.corner i ∈ path := by
  have hi := Nat.mod_lt i (List.length_pos_iff.mpr hpath)
  rw [corner, List.getElem?_eq_getElem hi, Option.getD_some]
  exact List.getElem_mem hi

/-- Going around, every corner is met from every other. -/
theorem exists_corner_add {path : Path α} (hpath : path ≠ []) (i k : ℕ) :
    ∃ m < path.length, path.corner k = path.corner (i + m) := by
  have hlength := List.length_pos_iff.mpr hpath
  refine ⟨(k + (path.length - 1) * i) % path.length, Nat.mod_lt _ hlength, ?_⟩
  have hround : i + (k + (path.length - 1) * i) = k + path.length * i := by
    obtain ⟨n, hn⟩ := Nat.exists_eq_succ_of_ne_zero hlength.ne'
    rw [hn, Nat.succ_sub_one, Nat.succ_mul]
    omega
  rw [corner, corner, Nat.add_mod_mod, hround, Nat.add_mul_mod_self_left]

/-- With the first corner at the end, the corners are the next ones. -/
theorem getElem?_concat_eq_corner {p : Vec2 α} {rest : Path α} {i : ℕ}
    (hi : i < (p :: rest).length) : (rest ++ [p])[i]? = some (corner (p :: rest) (i + 1)) := by
  rcases Nat.lt_or_ge i rest.length with h | h
  · rw [List.getElem?_append_left h, ← getElem?_eq_corner (Nat.succ_lt_succ h),
      List.getElem?_cons_succ]
  · obtain rfl : i = rest.length := Nat.le_antisymm (Nat.le_of_lt_succ hi) h
    have hfirst : corner (p :: rest) (rest.length + 1) = p := by
      rw [corner, List.length_cons, Nat.mod_self]
      rfl
    rw [List.getElem?_concat_length, hfirst]

/-- The edges of a path are its first sides. -/
theorem edges_eq_map_side (path : Path α) :
    path.edges = (List.range path.length).map path.side := by
  cases path with
  | nil => rfl
  | cons p rest =>
      apply List.ext_getElem?
      intro i
      rw [edges, List.getElem?_zipWith, List.getElem?_map]
      rcases Nat.lt_or_ge i (p :: rest).length with hi | hi
      · rw [getElem?_eq_corner hi, getElem?_concat_eq_corner hi, List.getElem?_range hi]
        rfl
      · rw [List.getElem?_eq_none hi, List.getElem?_eq_none (by simpa using hi),
          List.getElem?_eq_none (by simpa using hi)]
        rfl

theorem side_mem_edges {path : Path α} (hpath : path ≠ []) (i : ℕ) : path.side i ∈ path.edges := by
  rw [edges_eq_map_side, ← path.periodic_side.map_mod_nat]
  exact List.mem_map_of_mem (List.mem_range.mpr (Nat.mod_lt i (List.length_pos_iff.mpr hpath)))

theorem exists_side_of_mem_edges {path : Path α} {e : Edge α} (he : e ∈ path.edges) :
    ∃ i, path.side i = e := by
  rw [edges_eq_map_side] at he
  obtain ⟨i, _, hi⟩ := List.mem_map.mp he
  exact ⟨i, hi⟩

theorem countP_edges (path : Path α) (test : Edge α → Bool) :
    path.edges.countP test =
      ((Finset.range path.length).filter fun i => test (path.side i) = true).card := by
  rw [edges_eq_map_side, List.countP_map, List.countP_eq_length_filter]
  change _ = ((List.range path.length).filter fun i => decide (test (path.side i) = true)).length
  simp only [Bool.decide_eq_true]
  rfl

end corners

variable (path : Path ℝ)

/-- The sides that rise past a height. -/
noncomputable def rising (h : ℝ) : Finset ℕ :=
  (Finset.range path.length).filter fun i => (path.side i).Rises h

/-- The sides that fall past a height. -/
noncomputable def falling (h : ℝ) : Finset ℕ :=
  (Finset.range path.length).filter fun i => (path.side i).Falls h

theorem mem_rising {h : ℝ} {i : ℕ} :
    i ∈ path.rising h ↔ i < path.length ∧ (path.side i).Rises h := by
  rw [rising, Finset.mem_filter, Finset.mem_range]

theorem mem_falling {h : ℝ} {i : ℕ} :
    i ∈ path.falling h ↔ i < path.length ∧ (path.side i).Falls h := by
  rw [falling, Finset.mem_filter, Finset.mem_range]

theorem disjoint_rising_falling (h : ℝ) : Disjoint (path.rising h) (path.falling h) := by
  refine Finset.disjoint_left.mpr fun i hr hf => ?_
  exact (path.mem_rising.mp hr).2.not_falls (path.mem_falling.mp hf).2

/-- A closed path rises past a height as often as it falls past it. -/
theorem card_rising_eq_card_falling (h : ℝ) : (path.rising h).card = (path.falling h).card := by
  let above (i : ℕ) : ℕ := if h < (path.corner i).y then 1 else 0
  have hperiodic : Function.Periodic above path.length := by
    intro i
    simp only [above, path.periodic_corner i]
  -- an edge that rises leads from a corner below to one above, and one that falls the other way
  have hstep (i : ℕ) : (if (path.side i).Rises h then 1 else 0) + above i =
      (if (path.side i).Falls h then 1 else 0) + above (1 + i) := by
    simp only [above, Edge.Rises, Edge.Falls, side, Nat.add_comm 1 i, ← not_lt]
    by_cases hi : h < (path.corner i).y <;> by_cases hj : h < (path.corner (i + 1)).y <;> simp [hi, hj]
  have hsum := Finset.sum_congr (rfl : Finset.range path.length = _) fun i _ => hstep i
  rw [Finset.sum_add_distrib, Finset.sum_add_distrib, sum_range_add_of_periodic hperiodic 1] at hsum
  rw [rising, falling, Finset.card_filter, Finset.card_filter]
  exact Nat.add_right_cancel hsum

theorem contains_iff {p : Vec2 ℝ} :
    path.contains p = true ↔ path.edges.countP (·.crosses p) % 2 = 1 := by
  rw [contains, beq_iff_eq]

/-- On the way from a corner below to one above, an edge rises. -/
theorem rising_nonempty {path : Path ℝ} (hpath : path ≠ []) {i k : ℕ} {h : ℝ}
    (hi : (path.corner i).y ≤ h) (hk : h < (path.corner k).y) : (path.rising h).Nonempty := by
  by_contra hnone
  have hrises (j : ℕ) : ¬(path.side j).Rises h := by
    intro hj
    refine hnone ⟨j % path.length, path.mem_rising.mpr ⟨?_, ?_⟩⟩
    · exact Nat.mod_lt _ (List.length_pos_iff.mpr hpath)
    · rwa [path.periodic_side.map_mod_nat]
  have hbelow (m : ℕ) : (path.corner (i + m)).y ≤ h := by
    induction m with
    | zero => exact hi
    | succ m ih => exact not_lt.mp fun hlt => hrises (i + m) ⟨ih, hlt⟩
  obtain ⟨m, _, hm⟩ := exists_corner_add hpath i k
  exact (hbelow m).not_gt (hm ▸ hk)

/-- The number of crossed edges, among those that rise and those that fall past the point. -/
theorem countP_crosses (p : Vec2 ℝ) :
    path.edges.countP (·.crosses p) =
      ((path.rising p.y).filter fun i => p.x < ((path.side i).meet p.y).x).card +
        ((path.falling p.y).filter fun i => p.x < ((path.side i).meet p.y).x).card := by
  have hdisjoint := Finset.disjoint_filter_filter (p := fun i => p.x < ((path.side i).meet p.y).x)
    (q := fun i => p.x < ((path.side i).meet p.y).x) (path.disjoint_rising_falling p.y)
  rw [countP_edges, ← Finset.card_union_of_disjoint hdisjoint, ← Finset.filter_union]
  congr 1
  ext i
  simp only [Finset.mem_filter, Finset.mem_union, mem_rising, mem_falling, Edge.crosses_iff,
    Finset.mem_range, Edge.Spans]
  tauto

section inside
variable {path} {p : Vec2 ℝ}

theorem contains_of_rising_eq_empty (hr : path.rising p.y = ∅) (hf : path.falling p.y = ∅) :
    path.contains p = false := by
  rw [Bool.eq_false_iff, ne_eq, contains_iff, countP_crosses, hr, hf]
  simp

/-- With one edge that rises past its height and one that falls, a point is inside if it is between
them. -/
theorem contains_iff_of_eq_singleton {r f : ℕ} (hr : path.rising p.y = {r})
    (hf : path.falling p.y = {f}) :
    path.contains p = true ↔
      (p.x < ((path.side r).meet p.y).x ↔ ¬p.x < ((path.side f).meet p.y).x) := by
  rw [contains_iff, countP_crosses, hr, hf, Finset.filter_singleton, Finset.filter_singleton]
  by_cases hmeet : p.x < ((path.side r).meet p.y).x <;>
    by_cases hmeet' : p.x < ((path.side f).meet p.y).x <;> simp [hmeet, hmeet']

end inside

/-! ### The box around a path -/

section box
variable {path} {p : Vec2 ℝ}

/-- If no edge is met to the right of the point, none is crossed. -/
theorem countP_crosses_eq_zero
    (h : ∀ i, (path.side i).Spans p.y → ((path.side i).meet p.y).x ≤ p.x) :
    path.edges.countP (·.crosses p) = 0 := by
  refine List.countP_eq_zero.mpr fun e he => ?_
  obtain ⟨i, rfl⟩ := exists_side_of_mem_edges he
  rw [Edge.crosses_iff]
  exact fun hcross => (h i hcross.1).not_gt hcross.2

/-- If every edge at the height of the point is met to the right of it, the crossed edges come in
pairs. -/
theorem countP_crosses_eq_two_mul
    (h : ∀ i, (path.side i).Spans p.y → p.x < ((path.side i).meet p.y).x) :
    path.edges.countP (·.crosses p) = 2 * (path.rising p.y).card := by
  rw [countP_crosses, Finset.filter_true_of_mem fun i hi => h i (Or.inl (path.mem_rising.mp hi).2),
    Finset.filter_true_of_mem fun i hi => h i (Or.inr (path.mem_falling.mp hi).2),
    ← card_rising_eq_card_falling, Nat.two_mul]

variable (path p) in
/-- The point is in the box around all corners: in each direction it is not beyond all of them. -/
def InBox : Prop :=
  (∃ v ∈ path, v.x ≤ p.x) ∧ (∃ v ∈ path, p.x ≤ v.x) ∧ (∃ v ∈ path, v.y ≤ p.y) ∧ ∃ v ∈ path, p.y ≤ v.y

/-- A point outside the box around a path is outside the path, whatever the path. -/
theorem contains_eq_false_of_not_inBox (hp : ¬path.InBox p) : path.contains p = false := by
  rw [Bool.eq_false_iff, ne_eq, contains_iff]
  rcases eq_or_ne path [] with rfl | hpath
  · simp [edges]
  have hends {P : Vec2 ℝ → Prop} (h : ∀ v ∈ path, P v) (i : ℕ) :
      P (path.side i).start ∧ P (path.side i).stop :=
    ⟨h _ (corner_mem hpath i), h _ (corner_mem hpath (i + 1))⟩
  rw [InBox, not_and_or, not_and_or, not_and_or] at hp
  simp only [not_exists, not_and, not_le] at hp
  rcases hp with hleft | hright | hbelow | habove
  · rw [countP_crosses_eq_two_mul, Nat.mul_mod_right]
    · exact Nat.zero_ne_one
    · intro i hi
      obtain ⟨hstart, hstop⟩ := hends (P := fun v => p.x < v.x) hleft i
      exact (lt_min hstart hstop).trans_le (Edge.meet_x_mem hi).1
  · rw [countP_crosses_eq_zero]
    · exact Nat.zero_ne_one
    · intro i hi
      obtain ⟨hstart, hstop⟩ := hends (P := fun v => v.x < p.x) hright i
      exact (Edge.meet_x_mem hi).2.trans (max_lt hstart hstop).le
  -- beyond all corners in height no edge is met
  · rw [countP_crosses_eq_zero]
    · exact Nat.zero_ne_one
    · intro i hi
      obtain ⟨hstart, hstop⟩ := hends (P := fun v => p.y < v.y) hbelow i
      exact absurd hi (by simp [Edge.spans_iff, hstart, hstop])
  · rw [countP_crosses_eq_zero]
    · exact Nat.zero_ne_one
    · intro i hi
      obtain ⟨hstart, hstop⟩ := hends (P := fun v => v.y < p.y) habove i
      exact absurd hi (by simp [Edge.spans_iff, hstart.le, hstop.le])

end box

end Path

end TriMesh
