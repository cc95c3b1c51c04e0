import TriMesh.Proofs.ComplexPlane
import TriMesh.Proofs.Crossings
import TriMesh.Proofs.TurningAngles

/-! # Convex paths

Which points are inside a convex path, read with exact scalars.

* A path is convex if it turns to one side at every corner, to the left or to the right, and once around
  in all (`IsConvex`).  All corners are then on that side of every edge, and strictly but for the two ends
  of the edge (`IsConvex.leftOf_pos`, `IsConvex.leftOf_nonneg`).
* So at most one edge rises past a height and at most one falls (`IsConvex.card_rising_le_one`), and a
  point is inside if it is between the two (`contains_iff_of_eq_singleton`).
* A point on the inner side of all edges has corners above and below it (`exists_y_neg_of_turning`) and is
  between two edges; a point between two edges is on the outer side of none. -/

namespace TriMesh

namespace Path

/-- The way from a corner to the next one. -/
noncomputable def step (path : Path ℝ) (i : ℕ) : Vec2 ℝ := path.corner (i + 1) - path.corner i

/-- The path turns at every corner to the left, or at every corner to the right, and once around in
all. -/
structure IsConvex (path : Path ℝ) (sense : ℝ) : Prop where
  /-- The sense is one to the left and minus one to the right. -/
  eq_or_eq : sense = 1 ∨ sense = -1
  /-- There are three corners or more. -/
  three_le : 3 ≤ path.length
  /-- Each step turns against the one before. -/
  turn : ∀ i < path.length, 0 < sense * (path.step i).perpDot (path.step (i + 1))
  /-- The angles of all turns add up to one full turn. -/
  once : angleTo (fun k => (path.step k).toComplex) path.length = sense * Scalar.tau

variable {path : Path ℝ} {sense : ℝ}

theorem periodic_step (path : Path ℝ) : Function.Periodic path.step path.length := by
  intro i
  rw [step, step, Nat.add_right_comm, periodic_corner path, periodic_corner path]

/-- How far a corner is to the left of an edge adds up over the steps to it. -/
theorem leftOf_corner (path : Path ℝ) (i m : ℕ) :
    (path.side i).leftOf (path.corner (i + m)) =
      ∑ j ∈ Finset.range m, (path.step i).perpDot (path.step (i + j)) := by
  have hterm (j : ℕ) : (path.step i).perpDot (path.step (i + j)) =
      (path.step i).perpDot (path.corner (i + (j + 1))) -
        (path.step i).perpDot (path.corner (i + j)) := by
    have hstep : path.step (i + j) = path.corner (i + (j + 1)) - path.corner (i + j) := rfl
    rw [hstep]
    simp only [Vec2.perpDot_eq, Vec2.sub_x, Vec2.sub_y]
    ring
  rw [Finset.sum_congr rfl fun j _ => hterm j,
    Finset.sum_range_sub fun j => (path.step i).perpDot (path.corner (i + j))]
  simp only [Edge.leftOf, side, step, Vec2.perpDot_eq, Vec2.sub_x, Vec2.sub_y, Nat.add_zero]
  ring

/-- Directions that turn to one side, and come back to the first, are not all upward or level. -/
theorem exists_y_neg_of_turning {w : ℕ → Vec2 ℝ} {n : ℕ} (hn : n ≠ 0)
    (hw : Function.Periodic w n) (h : ∀ i, 0 < sense * (w i).perpDot (w (i + 1))) :
    ∃ i, (w i).y < 0 := by
  by_contra hall
  simp only [not_exists, not_lt] at hall
  obtain ⟨i, hi⟩ : ∃ i, 0 < (w i).y := by
    by_contra hlevel
    simp only [not_exists, not_lt] at hlevel
    have hfirst := h 0
    rw [Vec2.perpDot_eq, le_antisymm (hlevel 0) (hall 0), le_antisymm (hlevel (0 + 1)) (hall (0 + 1))]
      at hfirst
    simp at hfirst
  -- in the upper half plane a direction that is turned against is so by all later ones
  have hlater (m : ℕ) : 0 < sense * (w i).perpDot (w (i + (m + 1))) := by
    induction m with
    | zero => exact h i
    | succ m ih =>
        have hstep : (w (i + (m + 1))).y * (sense * (w i).perpDot (w (i + (m + 1 + 1)))) =
            (w i).y * (sense * (w (i + (m + 1))).perpDot (w (i + (m + 1 + 1)))) +
              (w (i + (m + 1 + 1))).y * (sense * (w i).perpDot (w (i + (m + 1)))) := by
          simp only [Vec2.perpDot_eq]
          ring
        have hpos := add_pos_of_pos_of_nonneg (mul_pos hi (h (i + (m + 1))))
          (mul_nonneg (hall (i + (m + 1 + 1))) ih.le)
        exact pos_of_mul_pos_right (hpos.trans_eq hstep.symm) (hall _)
  obtain ⟨m, rfl⟩ := Nat.exists_eq_succ_of_ne_zero hn
  have hround := hlater m
  rw [hw i, Vec2.perpDot_eq, mul_comm (w i).x, sub_self, mul_zero] at hround
  exact hround.false

namespace IsConvex

variable (h : path.IsConvex sense)
include h

theorem ne_nil : path ≠ [] := by
  rintro rfl
  exact absurd h.three_le (by simp)

theorem turns (i : ℕ) : 0 < sense * (path.step i).perpDot (path.step (i + 1)) := by
  have hperiodic : Function.Periodic (fun i => (path.step i).perpDot (path.step (i + 1)))
      path.length := by
    intro i
    simp only [Nat.add_right_comm i path.length 1, path.periodic_step _]
  have hturn := h.turn (i % path.length) (Nat.mod_lt i (List.length_pos_iff.mpr h.ne_nil))
  exact hturn.trans_eq (congrArg (sense * ·) (hperiodic.map_mod_nat i))

/-- A corner that is no end of an edge is strictly on its inner side. -/
theorem leftOf_pos (i : ℕ) {m : ℕ} (hm : 2 ≤ m) (hmn : m < path.length) :
    0 < sense * (path.side i).leftOf (path.corner (i + m)) := by
  have him (a b : Vec2 ℝ) : (starRingEnd ℂ a.toComplex * b.toComplex).im = a.perpDot b := by
    rw [Vec2.conj_mul_toComplex]
  have honce : angleTo (fun k => (path.step (i + k)).toComplex) path.length =
      sense * (2 * Real.pi) := by
    have hperiodic : Function.Periodic (turnAt fun k => (path.step k).toComplex) path.length := by
      intro k
      simp only [turnAt, Nat.add_right_comm k path.length 1, path.periodic_step _]
    rw [← Scalar.real_tau, ← h.once]
    exact sum_range_add_of_periodic hperiodic i
  have hclosed : ∑ k ∈ Finset.range path.length, (path.step (i + k)).toComplex = 0 := by
    have hsum := Finset.sum_range_sub (fun k => (path.corner (i + k)).toComplex) path.length
    rw [path.periodic_corner i, Nat.add_zero, sub_self] at hsum
    exact hsum
  have hpos := sum_im_pos_of_turn (z := fun k => (path.step (i + k)).toComplex) h.eq_or_eq
    (fun k => by rw [him]; exact h.turns (i + k)) honce hclosed hm hmn
  simp only [him, Nat.add_zero] at hpos
  rwa [leftOf_corner]

/-- No corner is on the outer side of an edge. -/
theorem leftOf_nonneg (i k : ℕ) : 0 ≤ sense * (path.side i).leftOf (path.corner k) := by
  obtain ⟨m, hm, hk⟩ := exists_corner_add h.ne_nil i k
  rw [hk]
  rcases Nat.lt_or_ge m 2 with hend | hinner
  · suffices hzero : (path.side i).leftOf (path.corner (i + m)) = 0 by rw [hzero, mul_zero]
    rw [leftOf_corner]
    interval_cases m
    · exact Finset.sum_range_zero _
    · rw [Finset.sum_range_one, Nat.add_zero, Vec2.perpDot_eq]
      ring
  · exact (h.leftOf_pos i hinner hm).le

theorem leftOf_meet (i : ℕ) {k : ℕ} {y : ℝ} (hk : (path.side k).Spans y) :
    0 ≤ sense * (path.side i).leftOf ((path.side k).meet y) :=
  Edge.leftOf_meet_nonneg hk (h.leftOf_nonneg i k) (h.leftOf_nonneg i (k + 1))

section rising
variable {y : ℝ} {a b : ℕ} (ha : (path.side a).Rises y) (hb : (path.side b).Rises y)
include ha hb

/-- Of two edges that rise past a height, one meets it on the inner side of the other. -/
theorem meet_nonneg :
    0 ≤ sense * (((path.side a).meet y).x - ((path.side b).meet y).x) := by
  have hinner := h.leftOf_meet a (Or.inl hb)
  rw [Edge.leftOf_eq (Edge.Spans.ne (Or.inl ha)), Edge.meet_y, mul_left_comm] at hinner
  exact nonneg_of_mul_nonneg_right hinner (sub_pos.mpr ha.lt)

/-- Of two edges that rise past a height, each begins on the line of the other. -/
theorem leftOf_corner_nonpos : sense * (path.side a).leftOf (path.corner b) ≤ 0 := by
  -- each meets the height on the inner side of the other, so both meet it at the same point
  have hsame : sense * (((path.side a).meet y).x - ((path.side b).meet y).x) = 0 := by
    linarith [h.meet_nonneg ha hb, h.meet_nonneg hb ha]
  refine Edge.leftOf_start_nonpos hb (h.leftOf_nonneg a (b + 1)) (le_of_eq ?_)
  rw [Edge.leftOf_eq (Edge.Spans.ne (Or.inl ha)), Edge.meet_y, mul_left_comm, hsame, mul_zero]

end rising

/-- After an edge that rises past a height, only the next one could do so, too. -/
theorem lt_two_of_rises {y : ℝ} {i m : ℕ} (hm : m < path.length) (hi : (path.side i).Rises y)
    (him : (path.side (i + m)).Rises y) : m < 2 := by
  by_contra hfar
  exact (h.leftOf_pos i (not_lt.mp hfar) hm).not_ge (h.leftOf_corner_nonpos hi him)

/-- At most one edge rises past a height. -/
theorem card_rising_le_one (y : ℝ) : (path.rising y).card ≤ 1 := by
  refine Finset.card_le_one.mpr fun i hi k hk => ?_
  by_contra hne
  wlog hik : i < k generalizing i k
  · exact this k hk i hi (Ne.symm hne) (lt_of_le_of_ne (not_lt.mp hik) (Ne.symm hne))
  obtain ⟨_, hi⟩ := path.mem_rising.mp hi
  obtain ⟨hkn, hk⟩ := path.mem_rising.mp hk
  -- each of the two would be the one after the other, and there are three edges or more
  have hnext : k - i < 2 := by
    refine h.lt_two_of_rises (by omega) hi ?_
    rwa [Nat.add_sub_cancel' hik.le]
  have hback : i + path.length - k < 2 := by
    refine h.lt_two_of_rises (by omega) hk ?_
    rwa [Nat.add_sub_cancel' (by omega), path.periodic_side i]
  have := h.three_le
  omega

/-- No edge spans a height, or one rises past it and one falls. -/
theorem rising_falling (y : ℝ) :
    path.rising y = ∅ ∧ path.falling y = ∅ ∨
      ∃ r f, path.rising y = {r} ∧ path.falling y = {f} ∧ (path.side r).Rises y ∧
        (path.side f).Falls y := by
  have hcard := path.card_rising_eq_card_falling y
  rcases Nat.le_one_iff_eq_zero_or_eq_one.mp (h.card_rising_le_one y) with hzero | hone
  · exact Or.inl ⟨Finset.card_eq_zero.mp hzero, Finset.card_eq_zero.mp (hcard.symm.trans hzero)⟩
  · obtain ⟨r, hr⟩ := Finset.card_eq_one.mp hone
    obtain ⟨f, hf⟩ := Finset.card_eq_one.mp (hcard.symm.trans hone)
    exact Or.inr ⟨r, f, hr, hf, (path.mem_rising.mp (hr ▸ Finset.mem_singleton_self r)).2,
      (path.mem_falling.mp (hf ▸ Finset.mem_singleton_self f)).2⟩

/-- A point on the outer side of an edge is outside. -/
theorem contains_of_outer {p : Vec2 ℝ} {i : ℕ} (hp : sense * (path.side i).leftOf p < 0) :
    path.contains p = false := by
  rcases h.rising_falling p.y with ⟨hr, hf⟩ | ⟨r, f, hr, hf, hrise, hfall⟩
  · exact contains_of_rising_eq_empty hr hf
  rw [Bool.eq_false_iff, ne_eq, contains_iff_of_eq_singleton hr hf]
  intro hbetween
  have hrise' := h.leftOf_meet i (Or.inl hrise)
  have hfall' := h.leftOf_meet i (Or.inr hfall)
  refine hp.not_ge ?_
  -- a point between the two edges is on the inner side of all edges, as they are
  rcases lt_or_ge p.x ((path.side r).meet p.y).x with hlt | hge
  · have hge := not_lt.mp (hbetween.mp hlt)
    exact Edge.leftOf_nonneg_of_between (Edge.meet_y _ _) (Edge.meet_y _ _) hge hlt.le hfall' hrise'
  · have hlt := not_not.mp (mt hbetween.mpr hge.not_gt)
    exact Edge.leftOf_nonneg_of_between (Edge.meet_y _ _) (Edge.meet_y _ _) hge hlt.le hrise' hfall'

/-- A point on the inner side of all edges has a corner below it and one above. -/
theorem exists_corner_y {p : Vec2 ℝ} (hp : ∀ i, 0 < sense * (path.side i).leftOf p) :
    (∃ i, (path.corner i).y < p.y) ∧ ∃ k, p.y < (path.corner k).y := by
  have hlength : path.length ≠ 0 := fun hzero => h.ne_nil (List.length_eq_zero_iff.mp hzero)
  -- seen from the point the corners turn to one side, and so they do turned over
  have hturn (i : ℕ) : 0 < sense * (path.corner i - p).perpDot (path.corner (i + 1) - p) := by
    refine (hp i).trans_eq (congrArg (sense * ·) ?_)
    simp only [Edge.leftOf, side, Vec2.perpDot_eq, Vec2.sub_x, Vec2.sub_y]
    ring
  have hover (i : ℕ) : 0 < sense * (p - path.corner i).perpDot (p - path.corner (i + 1)) := by
    refine (hturn i).trans_eq (congrArg (sense * ·) ?_)
    simp only [Vec2.perpDot_eq, Vec2.sub_x, Vec2.sub_y]
    ring
  have hbelow := exists_y_neg_of_turning hlength (fun i => by rw [path.periodic_corner i]) hturn
  have habove := exists_y_neg_of_turning hlength (fun i => by rw [path.periodic_corner i]) hover
  exact ⟨hbelow.imp fun i => sub_neg.mp, habove.imp fun i => sub_neg.mp⟩

/-- A point on the inner side of all edges is inside. -/
theorem contains_of_inner {p : Vec2 ℝ} (hp : ∀ i, 0 < sense * (path.side i).leftOf p) :
    path.contains p = true := by
  obtain ⟨⟨i, hi⟩, k, hk⟩ := h.exists_corner_y hp
  rcases h.rising_falling p.y with ⟨hr, _⟩ | ⟨r, f, hr, hf, hrise, hfall⟩
  · exact absurd hr (rising_nonempty h.ne_nil hi.le hk).ne_empty
  have hbefore : 0 < sense * (((path.side r).meet p.y).x - p.x) := by
    have hpr := hp r
    rw [Edge.leftOf_eq (Edge.Spans.ne (Or.inl hrise)), mul_left_comm] at hpr
    exact pos_of_mul_pos_right hpr (sub_pos.mpr hrise.lt).le
  have hafter : sense * (((path.side f).meet p.y).x - p.x) < 0 := by
    have hpf := hp f
    rw [Edge.leftOf_eq (Edge.Spans.ne (Or.inr hfall)), mul_left_comm] at hpf
    exact neg_of_mul_pos_right hpf (sub_neg.mpr hfall.lt).le
  rw [contains_iff_of_eq_singleton hr hf]
  rcases h.eq_or_eq with rfl | rfl
  · exact iff_of_true (by linarith) (by linarith)
  · exact iff_of_false (by linarith) (not_not.mpr (by linarith))

end IsConvex

/-- **Inner and outer points.**  A convex path, walked in either sense, contains the points on the inner
side of all its edges and none on the outer side of an edge.  No path at all contains a point outside the
box around its corners. -/
theorem contains_by_sides_and_box (path : Path ℝ) (p : Vec2 ℝ) :
    (∀ sense, path.IsConvex sense →
      ((∀ e ∈ path.edges, 0 < sense * e.leftOf p) → path.contains p = true) ∧
        ((∃ e ∈ path.edges, sense * e.leftOf p < 0) → path.contains p = false)) ∧
      (¬path.InBox p → path.contains p = false) := by
  refine ⟨fun sense h => ⟨fun hinner => ?_, ?_⟩, contains_eq_false_of_not_inBox⟩
  · exact h.contains_of_inner fun i => hinner _ (side_mem_edges h.ne_nil i)
  · rintro ⟨e, he, houter⟩
    obtain ⟨i, rfl⟩ := exists_side_of_mem_edges he
    exact h.contains_of_outer houter

/-! ### A diamond -/

/-- A square that stands on a corner, walked in either sense. -/
noncomputable def diamond (sense : ℝ) : Path ℝ := [⟨1, 0⟩, ⟨0, sense⟩, ⟨-1, 0⟩, ⟨0, -sense⟩]

theorem edges_diamond (sense : ℝ) :
    (diamond sense).edges = [⟨⟨1, 0⟩, ⟨0, sense⟩⟩, ⟨⟨0, sense⟩, ⟨-1, 0⟩⟩, ⟨⟨-1, 0⟩, ⟨0, -sense⟩⟩,
      ⟨⟨0, -sense⟩, ⟨1, 0⟩⟩] := rfl

/-- The diamond turns by a right angle at every corner. -/
theorem turn_diamond (hsense : sense = 1 ∨ sense = -1) {i : ℕ} (hi : i < 4) :
    starRingEnd ℂ ((diamond sense).step i).toComplex * ((diamond sense).step (i + 1)).toComplex =
      ⟨0, 2 * sense⟩ := by
  rw [Vec2.conj_mul_toComplex]
  rcases hsense with rfl | rfl <;> interval_cases i <;>
    norm_num [step, corner, diamond, Vec2.dot_eq, Vec2.perpDot_eq]

theorem isConvex_diamond (hsense : sense = 1 ∨ sense = -1) : (diamond sense).IsConvex sense := by
  refine ⟨hsense, by simp [diamond], fun i hi => ?_, ?_⟩
  · have him := congrArg Complex.im (turn_diamond hsense hi)
    rw [Vec2.conj_mul_toComplex] at him
    change ((diamond sense).step i).perpDot _ = 2 * sense at him
    rw [him]
    rcases hsense with rfl | rfl <;> norm_num
  · have harg : (⟨0, 2 * sense⟩ : ℂ).arg = sense * (Real.pi / 2) := by
      rcases hsense with rfl | rfl
      · rw [one_mul]
        exact Complex.arg_eq_pi_div_two_iff.mpr ⟨rfl, by norm_num⟩
      · rw [neg_one_mul]
        exact Complex.arg_eq_neg_pi_div_two_iff.mpr ⟨rfl, by norm_num⟩
    have hturn (i : ℕ) (hi : i < 4) :
        turnAt (fun k => ((diamond sense).step k).toComplex) i = sense * (Real.pi / 2) := by
      rw [turnAt, turn_diamond hsense hi, harg]
    have hlength : (diamond sense).length = 4 := rfl
    rw [hlength, angleTo, Finset.sum_congr rfl fun i hi => hturn i (Finset.mem_range.mp hi),
      Finset.sum_const, Finset.card_range, Scalar.real_tau]
    ring

/-- The centre of a diamond is level with two of its corners, as is a point beside it; a third point
is in the box around the diamond but on the outer side of an edge. -/
theorem contains_diamond :
    (diamond 1).IsConvex 1 ∧ (diamond (-1)).IsConvex (-1) ∧
      (∀ e ∈ (diamond (-1)).edges, 0 < -1 * e.leftOf ⟨0, 0⟩) ∧ (diamond (-1)).contains ⟨0, 0⟩ = true ∧
      (∃ e ∈ (diamond 1).edges, 1 * e.leftOf ⟨3 / 4, 3 / 4⟩ < 0) ∧
        (diamond 1).contains ⟨3 / 4, 3 / 4⟩ = false ∧
      ¬(diamond 1).InBox ⟨2, 0⟩ ∧ (diamond 1).contains ⟨2, 0⟩ = false := by
  have hleft : (diamond 1).IsConvex 1 := isConvex_diamond (Or.inl rfl)
  have hright : (diamond (-1)).IsConvex (-1) := isConvex_diamond (Or.inr rfl)
  have hinner : ∀ e ∈ (diamond (-1)).edges, 0 < -1 * e.leftOf ⟨0, 0⟩ := by
    rw [edges_diamond]
    simp [Edge.leftOf, Vec2.perpDot_eq]
  have houter : ∃ e ∈ (diamond 1).edges, 1 * e.leftOf ⟨3 / 4, 3 / 4⟩ < 0 := by
    rw [edges_diamond]
    refine ⟨_, List.mem_cons_self, ?_⟩
    norm_num [Edge.leftOf, Vec2.perpDot_eq]
  have hbox : ¬(diamond 1).InBox ⟨2, 0⟩ := by
    norm_num [InBox, diamond]
  exact ⟨hleft, hright, hinner,
    ((contains_by_sides_and_box (diamond (-1)) ⟨0, 0⟩).1 (-1) hright).1 hinner, houter,
    ((contains_by_sides_and_box (diamond 1) ⟨3 / 4, 3 / 4⟩).1 1 hleft).2 houter, hbox,
    (contains_by_sides_and_box (diamond 1) ⟨2, 0⟩).2 hbox⟩

end Path

end TriMesh
