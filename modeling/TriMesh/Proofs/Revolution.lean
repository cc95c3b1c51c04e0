import Mathlib.Data.ZMod.Basic
import TriMesh.Proofs.Reals
import TriMesh.Proofs.Surfaces
import TriMesh.Lattice

/-! # Surfaces of revolution

What a profile in the half plane sweeps out when it is turned around the third axis in columns.

* A point of the profile is a radius with a height, and `spot` is its place in a column.  A `Link` is
  a segment of the profile; it sweeps out two facets in each column, one on the ring of its lower
  point and one on the ring of its upper point, and the diagonal may run either way.
* In a full turn column `n` is column `0`, so columns are taken modulo `n` (`rim`).  A ring of
  positive radius has `n` different places, a point on the axis has one (`rim_eq_iff`). -/

namespace TriMesh

/-! ### Links -/

/-- The place in column `c` of a point of the profile, given by its radius and its height. -/
def spot {α : Type} [Scalar α] (sweep : α) (columns : ℕ) (p : Vec2 α) (c : ℕ) : Vec3 α :=
  Lattice.onCircle p.x (Lattice.columnAngle sweep columns c) p.y

/-- A segment of a profile. -/
structure Link (α : Type) where
  /-- Where it begins. -/
  lower : Vec2 α
  /-- Where it ends. -/
  upper : Vec2 α
  /-- The diagonal of a cell advances with the sweep on its way up. -/
  rising : Bool

namespace Link

variable {α : Type} [Scalar α] (l : Link α) (sweep : α) (columns : ℕ)

/-- The facet with two corners on the lower ring. -/
def onLower (c : ℕ) : Facet (Vec3 α) :=
  let p := spot sweep columns l.lower
  let q := spot sweep columns l.upper
  if l.rising then ⟨p (c + 1), p c, q (c + 1)⟩ else ⟨q c, p (c + 1), p c⟩

/-- The facet with two corners on the upper ring. -/
def onUpper (c : ℕ) : Facet (Vec3 α) :=
  let p := spot sweep columns l.lower
  let q := spot sweep columns l.upper
  if l.rising then ⟨p c, q c, q (c + 1)⟩ else ⟨q (c + 1), p (c + 1), q c⟩

/-- What the link sweeps out, column by column. -/
def facets : Surface (Vec3 α) :=
  (List.range columns).flatMap fun c => [l.onLower sweep columns c, l.onUpper sweep columns c]

/-- The link walked from its end to its beginning. -/
def reverse : Link α := ⟨l.upper, l.lower, !l.rising⟩

theorem flip_onLower (c : ℕ) : (l.onLower sweep columns c).flip = l.reverse.onUpper sweep columns c := by
  rcases l with ⟨p, q, _ | _⟩ <;> rfl

theorem flip_onUpper (c : ℕ) : (l.onUpper sweep columns c).flip = l.reverse.onLower sweep columns c := by
  rcases l with ⟨p, q, _ | _⟩ <;> rfl

variable [DecidableEq (Vec3 α)]

theorem properEdges_facets :
    (l.facets sweep columns).properEdges =
      Surface.properEdges ((List.range columns).map (l.onLower sweep columns)) +
        Surface.properEdges ((List.range columns).map (l.onUpper sweep columns)) :=
  Surface.properEdges_pairs _ _ _

/-- Turning the facets over is walking the link the other way. -/
theorem properEdges_map_flip :
    Surface.properEdges ((l.facets sweep columns).map Facet.flip) =
      (l.reverse.facets sweep columns).properEdges := by
  unfold facets
  rw [List.map_flatMap]
  simp only [List.map_cons, List.map_nil, flip_onLower, flip_onUpper]
  rw [Surface.properEdges_pairs, Surface.properEdges_pairs, add_comm]

end Link

/-! ### Angles and circles -/

theorem Lattice.columnAngle_zero (sweep : ℝ) (segments : ℕ) : columnAngle sweep segments 0 = 0 := by
  rw [columnAngle, Nat.cast_zero, zero_mul]

theorem Lattice.columnAngle_last (sweep : ℝ) {segments : ℕ} (h : segments ≠ 0) :
    columnAngle sweep segments segments = sweep :=
  mul_div_cancel₀ sweep (Nat.cast_ne_zero.mpr h)

theorem Lattice.columnAngle_succ_sub (sweep : ℝ) (segments seg : ℕ) :
    columnAngle sweep segments (seg + 1) - columnAngle sweep segments seg = sweep / segments := by
  simp only [columnAngle, Nat.cast_succ]
  ring

/-- Two neighbouring columns span the same area everywhere in the sweep. -/
theorem Lattice.sin_mul_cos_columnAngle_sub (sweep : ℝ) (segments seg : ℕ) :
    Real.sin (columnAngle sweep segments seg) * Real.cos (columnAngle sweep segments (seg + 1)) -
      Real.cos (columnAngle sweep segments seg) * Real.sin (columnAngle sweep segments (seg + 1)) =
        -Real.sin (sweep / segments) := by
  rw [← Real.sin_sub, ← columnAngle_succ_sub sweep segments seg, ← Real.sin_neg, neg_sub]

/-- In three or more columns, the step from one to the next is less than half a turn. -/
theorem sin_step_pos {sweep : ℝ} (h : 0 < sweep) (hle : sweep ≤ 2 * Real.pi) {n : ℕ} (hn : 3 ≤ n) :
    0 < Real.sin (sweep / n) := by
  have h3 : (3 : ℝ) ≤ n := Nat.ofNat_le_cast.mpr hn
  have hpi := Real.pi_pos
  refine Real.sin_pos_of_pos_of_lt_pi (by positivity) ?_
  rw [div_lt_iff₀ (by linarith)]
  nlinarith

/-- Two angles of one turn are told apart by sine and cosine. -/
theorem angle_eq_of_sin_cos {a b : ℝ} (ha : a ∈ Set.Ico 0 (2 * Real.pi))
    (hb : b ∈ Set.Ico 0 (2 * Real.pi)) (hs : Real.sin a = Real.sin b) (hc : Real.cos a = Real.cos b) :
    a = b := by
  -- the two angles differ by less than a turn, and the cosine of their difference is one
  have hone : Real.cos (a - b) = 1 := by
    rw [Real.cos_sub, hs, hc]
    nlinarith [Real.sin_sq_add_cos_sq b]
  have hlower : -(2 * Real.pi) < a - b := by linarith [ha.1, hb.2]
  have hupper : a - b < 2 * Real.pi := by linarith [ha.2, hb.1]
  exact sub_eq_zero.mp ((Real.cos_eq_one_iff_of_lt_of_lt hlower hupper).mp hone)

namespace Lattice

variable {radius radius' a b z z' : ℝ}

theorem radius_eq_of_onCircle_eq (hr : 0 ≤ radius) (hr' : 0 ≤ radius')
    (h : onCircle radius a z = onCircle radius' b z') : radius = radius' := by
  obtain ⟨hs, hc, -⟩ := Vec3.mk.inj h
  rw [Scalar.real_sin, Scalar.real_sin] at hs
  rw [Scalar.real_cos, Scalar.real_cos] at hc
  have hsq : radius ^ 2 = radius' ^ 2 := by
    calc radius ^ 2 = (radius * Real.sin a) ^ 2 + (radius * Real.cos a) ^ 2 := by
          linear_combination -radius ^ 2 * Real.sin_sq_add_cos_sq a
      _ = radius' ^ 2 := by
          rw [hs, hc]
          linear_combination radius' ^ 2 * Real.sin_sq_add_cos_sq b
  exact (pow_left_inj₀ hr hr' two_ne_zero).mp hsq

/-- Away from the axis a point tells its circle, its angle and its height. -/
theorem onCircle_eq_iff (hr : 0 < radius) (hr' : 0 < radius') (ha : a ∈ Set.Ico 0 (2 * Real.pi))
    (hb : b ∈ Set.Ico 0 (2 * Real.pi)) :
    onCircle radius a z = onCircle radius' b z' ↔ radius = radius' ∧ a = b ∧ z = z' := by
  constructor
  · intro h
    obtain rfl := radius_eq_of_onCircle_eq hr.le hr'.le h
    obtain ⟨hs, hc, hz⟩ := Vec3.mk.inj h
    exact ⟨rfl, angle_eq_of_sin_cos ha hb (mul_left_cancel₀ hr.ne' hs) (mul_left_cancel₀ hr.ne' hc), hz⟩
  · rintro ⟨rfl, rfl, rfl⟩
    rfl

end Lattice

/-! ### Columns of a full turn -/

theorem spot_tau (n : ℕ) (p : Vec2 ℝ) (c : ℕ) :
    spot (Scalar.tau : ℝ) n p c =
      ⟨p.x * Real.sin (c * (2 * Real.pi / n)), p.x * Real.cos (c * (2 * Real.pi / n)), p.y⟩ := by
  simp [spot, Lattice.onCircle, Lattice.columnAngle]

/-- The sine of the angle between neighbouring columns. -/
noncomputable def columnSine (n : ℕ) : ℝ := Real.sin (2 * Real.pi / n)

theorem columnSine_pos {n : ℕ} (hn : 3 ≤ n) : 0 < columnSine n :=
  sin_step_pos Real.two_pi_pos le_rfl hn

/-- Two neighbouring columns span the same area in every place of the turn. -/
theorem sin_mul_cos_succ_sub (n c : ℕ) :
    Real.sin (c * (2 * Real.pi / n)) * Real.cos ((c + 1 : ℕ) * (2 * Real.pi / n)) -
      Real.cos (c * (2 * Real.pi / n)) * Real.sin ((c + 1 : ℕ) * (2 * Real.pi / n)) =
        -columnSine n :=
  Lattice.sin_mul_cos_columnAngle_sub (2 * Real.pi) n c

section turn
variable {n : ℕ} [NeZero n]

/-- The place in a column of a full turn. -/
noncomputable def rim (p : Vec2 ℝ) (c : ZMod n) : Vec3 ℝ := spot (Scalar.tau : ℝ) n p c.val

/-- Columns count modulo the number of columns. -/
theorem spot_eq_rim (p : Vec2 ℝ) (c : ℕ) : spot (Scalar.tau : ℝ) n p c = rim p (c : ZMod n) := by
  have hn : (n : ℝ) ≠ 0 := Nat.cast_ne_zero.mpr (NeZero.ne n)
  have hc : (c : ℝ) = ((c % n : ℕ) : ℝ) + (n : ℝ) * ((c / n : ℕ) : ℝ) := by
    exact_mod_cast (Nat.mod_add_div c n).symm
  have ha : (c : ℝ) * (2 * Real.pi / n) =
      ((c % n : ℕ) : ℝ) * (2 * Real.pi / n) + ((c / n : ℕ) : ℝ) * (2 * Real.pi) := by
    rw [hc]
    field_simp
  unfold rim
  rw [ZMod.val_natCast, spot_tau, spot_tau, ha, Real.sin_add_nat_mul_two_pi,
    Real.cos_add_nat_mul_two_pi]

theorem spot_succ_eq_rim (p : Vec2 ℝ) (c : ℕ) :
    spot (Scalar.tau : ℝ) n p (c + 1) = rim p ((c : ZMod n) + 1) := by
  rw [spot_eq_rim, Nat.cast_succ]

/-- Two columns at one angle are the same. -/
theorem eq_of_sin_cos {c d : ZMod n}
    (hs : Real.sin (c.val * (2 * Real.pi / n)) = Real.sin (d.val * (2 * Real.pi / n)))
    (hc : Real.cos (c.val * (2 * Real.pi / n)) = Real.cos (d.val * (2 * Real.pi / n))) : c = d := by
  have hn : (0 : ℝ) < n := Nat.cast_pos.mpr (NeZero.pos n)
  have hpi := Real.pi_pos
  have hstep : 0 < 2 * Real.pi / n := by positivity
  have hturn : (n : ℝ) * (2 * Real.pi / n) = 2 * Real.pi := by field_simp
  have hmem (e : ZMod n) : (e.val : ℝ) * (2 * Real.pi / n) ∈ Set.Ico 0 (2 * Real.pi) :=
    ⟨by positivity, (mul_lt_mul_of_pos_right (Nat.cast_lt.mpr e.val_lt) hstep).trans_eq hturn⟩
  have hval := mul_right_cancel₀ hstep.ne' (angle_eq_of_sin_cos (hmem c) (hmem d) hs hc)
  exact ZMod.val_injective n (Nat.cast_injective hval)

/-- Places coincide only on one ring, and there in one column unless the ring is a point. -/
theorem rim_eq_iff {p q : Vec2 ℝ} (hp : 0 ≤ p.x) (hq : 0 ≤ q.x) (c d : ZMod n) :
    rim p c = rim q d ↔ p = q ∧ (p.x = 0 ∨ c = d) := by
  constructor
  · intro h
    have hx : p.x = q.x := Lattice.radius_eq_of_onCircle_eq hp hq h
    unfold rim at h
    rw [spot_tau, spot_tau, Vec3.mk.injEq] at h
    obtain ⟨hs, hc, hy⟩ := h
    refine ⟨Vec2.ext hx hy, ?_⟩
    by_cases h0 : p.x = 0
    · exact Or.inl h0
    · rw [← hx] at hs hc
      exact Or.inr (eq_of_sin_cos (mul_left_cancel₀ h0 hs) (mul_left_cancel₀ h0 hc))
  · rintro ⟨rfl, h0 | rfl⟩
    · unfold rim
      rw [spot_tau, spot_tau, h0]
      simp
    · rfl

theorem rim_eq_of_axis {p : Vec2 ℝ} (hp : p.x = 0) (c d : ZMod n) : rim p c = rim p d :=
  (rim_eq_iff hp.ge hp.ge c d).mpr ⟨rfl, Or.inl hp⟩

/-! ### Facets of a full turn -/

namespace Link

variable {l : Link ℝ}

theorem onLower_tau (l : Link ℝ) (c : ℕ) :
    l.onLower (Scalar.tau : ℝ) n c =
      if l.rising then ⟨rim l.lower (c + 1 : ZMod n), rim l.lower (c : ZMod n),
        rim l.upper (c + 1 : ZMod n)⟩
      else ⟨rim l.upper (c : ZMod n), rim l.lower (c + 1 : ZMod n), rim l.lower (c : ZMod n)⟩ := by
  simp only [onLower, spot_succ_eq_rim, spot_eq_rim]

theorem onUpper_tau (l : Link ℝ) (c : ℕ) :
    l.onUpper (Scalar.tau : ℝ) n c =
      if l.rising then ⟨rim l.lower (c : ZMod n), rim l.upper (c : ZMod n),
        rim l.upper (c + 1 : ZMod n)⟩
      else ⟨rim l.upper (c + 1 : ZMod n), rim l.lower (c + 1 : ZMod n),
        rim l.upper (c : ZMod n)⟩ := by
  simp only [onUpper, spot_succ_eq_rim, spot_eq_rim]

/-- The facet on the lower ring has three different corners unless that ring is a point. -/
theorem isProper_onLower_iff (hl : l.lower ≠ l.upper) (hp : 0 ≤ l.lower.x) (hq : 0 ≤ l.upper.x)
    (hn : 2 ≤ n) (c : ℕ) : (l.onLower (Scalar.tau : ℝ) n c).IsProper ↔ l.lower.x ≠ 0 := by
  have : Fact (1 < n) := ⟨hn⟩
  rw [onLower_tau]
  cases l.rising with
  | false => simp [Facet.IsProper, rim_eq_iff, hp, hq, hl, hl.symm]
  | true => simp [Facet.IsProper, rim_eq_iff, hp, hq, hl, hl.symm]

/-- The facet on the upper ring has three different corners unless that ring is a point. -/
theorem isProper_onUpper_iff (hl : l.lower ≠ l.upper) (hp : 0 ≤ l.lower.x) (hq : 0 ≤ l.upper.x)
    (hn : 2 ≤ n) (c : ℕ) : (l.onUpper (Scalar.tau : ℝ) n c).IsProper ↔ l.upper.x ≠ 0 := by
  have : Fact (1 < n) := ⟨hn⟩
  rw [onUpper_tau]
  cases l.rising with
  | false => simp [Facet.IsProper, rim_eq_iff, hp, hq, hl, hl.symm]
  | true => simp [Facet.IsProper, rim_eq_iff, hp, hq, hl, hl.symm]

end Link

end turn

end TriMesh
