import Mathlib.Analysis.SpecialFunctions.Complex.Arg
import Mathlib.Tactic

/-! # Turning angles

Sequences of directions that turn by less than a half turn at a time, to one side.

* Lengths along directions of increasing angle, from zero to a full turn, first add up to more and more
  across the first direction, then to less and less; if all together they add up to nothing, every part
  adds up to something positive (`sum_sin_pos`).
* The angle between the first direction and a later one is the sum of the turns between them
  (`conj_mul_eq_exp`), so a closed walk that turns fully once stays on one side of its first step
  (`sum_im_pos_of_turn`). -/

namespace TriMesh

/-- Along angles that increase from zero to a full turn, lengths across the first direction that add up
to zero have positive sums before. -/
theorem sum_sin_pos {r φ : ℕ → ℝ} {n m : ℕ} (hr : ∀ j, 0 < r j) (hφ : StrictMono φ) (h0 : φ 0 = 0)
    (h1 : φ 1 < Real.pi) (hn : φ n = 2 * Real.pi)
    (hsum : ∑ j ∈ Finset.range n, r j * Real.sin (φ j) = 0) (hm : 2 ≤ m) (hmn : m < n) :
    0 < ∑ j ∈ Finset.range m, r j * Real.sin (φ j) := by
  have hnonneg (j : ℕ) : 0 ≤ φ j := h0.symm.trans_le (hφ.monotone (Nat.zero_le j))
  rcases le_or_gt (φ (m - 1)) Real.pi with hbefore | hafter
  -- in the first half turn nothing is taken away
  · refine Finset.sum_pos' (fun j hj => ?_) ⟨1, Finset.mem_range.mpr hm, ?_⟩
    · have hj' : j ≤ m - 1 := Nat.le_sub_one_of_lt (Finset.mem_range.mp hj)
      exact mul_nonneg (hr j).le
        (Real.sin_nonneg_of_nonneg_of_le_pi (hnonneg j) ((hφ.monotone hj').trans hbefore))
    · exact mul_pos (hr 1) (Real.sin_pos_of_pos_of_lt_pi (h0.symm.trans_lt (hφ Nat.zero_lt_one)) h1)
  -- in the second half turn the rest is negative, and cancels what came before
  · have hrest : ∑ j ∈ Finset.Ico m n, r j * Real.sin (φ j) < 0 := by
      refine Finset.sum_neg (fun j hj => ?_) (Finset.nonempty_Ico.mpr hmn)
      obtain ⟨hmj, hjn⟩ := Finset.mem_Ico.mp hj
      refine mul_neg_of_pos_of_neg (hr j) ?_
      have hpi : Real.pi < φ j := hafter.trans_le (hφ.monotone (by omega))
      have htau : φ j < 2 * Real.pi := hn ▸ hφ hjn
      rw [← Real.sin_sub_two_pi]
      exact Real.sin_neg_of_neg_of_neg_pi_lt (by linarith) (by linarith)
    have hsplit := Finset.sum_range_add_sum_Ico (fun j => r j * Real.sin (φ j)) hmn.le
    linarith

section turns
variable {z : ℕ → ℂ}

/-- The angle by which a sequence of directions turns at an index. -/
noncomputable def turnAt (z : ℕ → ℂ) (k : ℕ) : ℝ := (starRingEnd ℂ (z k) * z (k + 1)).arg

/-- The angle by which it turns until a direction. -/
noncomputable def angleTo (z : ℕ → ℂ) (m : ℕ) : ℝ := ∑ k ∈ Finset.range m, turnAt z k

theorem angleTo_zero (z : ℕ → ℂ) : angleTo z 0 = 0 := Finset.sum_range_zero _

theorem angleTo_succ (z : ℕ → ℂ) (m : ℕ) : angleTo z (m + 1) = angleTo z m + turnAt z m :=
  Finset.sum_range_succ _ m

/-- Directions that turn to the left are not zero. -/
theorem ne_zero_of_turn (h : ∀ k, 0 < (starRingEnd ℂ (z k) * z (k + 1)).im) (k : ℕ) : z k ≠ 0 := by
  intro hz
  have hk := h k
  simp [hz] at hk

/-- The angle to a later direction is the sum of the turns on the way. -/
theorem conj_mul_eq_exp (h : ∀ k, z k ≠ 0) (m : ℕ) :
    starRingEnd ℂ (z 0) * z m =
      (‖z 0‖ * ‖z m‖ : ℝ) * Complex.exp (angleTo z m * Complex.I) := by
  induction m with
  | zero => simp [angleTo_zero, Complex.conj_mul', sq]
  | succ m ih =>
      have hm : z m * starRingEnd ℂ (z m) ≠ 0 := by
        simp [h m]
      have hstep := Complex.norm_mul_exp_arg_mul_I (starRingEnd ℂ (z m) * z (m + 1))
      rw [norm_mul, RCLike.norm_conj] at hstep
      apply mul_right_cancel₀ hm
      calc starRingEnd ℂ (z 0) * z (m + 1) * (z m * starRingEnd ℂ (z m))
          = starRingEnd ℂ (z 0) * z m * (starRingEnd ℂ (z m) * z (m + 1)) := by ring
        _ = (‖z 0‖ * ‖z m‖ : ℝ) * Complex.exp (angleTo z m * Complex.I) *
              ((‖z m‖ * ‖z (m + 1)‖ : ℝ) * Complex.exp (turnAt z m * Complex.I)) := by
            rw [ih, turnAt, hstep]
        _ = _ := by
            rw [Complex.mul_conj', angleTo_succ, Complex.ofReal_add, add_mul, Complex.exp_add]
            push_cast
            ring

/-- A turn to the left is by less than a half turn. -/
theorem turnAt_mem (h : ∀ k, 0 < (starRingEnd ℂ (z k) * z (k + 1)).im) (k : ℕ) :
    0 < turnAt z k ∧ turnAt z k < Real.pi := by
  constructor
  · refine lt_of_le_of_ne (Complex.arg_nonneg_iff.mpr (h k).le) fun hzero => ?_
    exact (h k).ne' (Complex.arg_eq_zero_iff.mp hzero.symm).2
  · exact Complex.arg_lt_pi_iff.mpr (Or.inr (h k).ne')

/-- A closed walk that turns to the left at every step, and fully once, stays to the left of its first
step. -/
theorem sum_im_pos_of_left {n m : ℕ} (h : ∀ k, 0 < (starRingEnd ℂ (z k) * z (k + 1)).im)
    (honce : angleTo z n = 2 * Real.pi) (hclosed : ∑ k ∈ Finset.range n, z k = 0) (hm : 2 ≤ m)
    (hmn : m < n) : 0 < ∑ j ∈ Finset.range m, (starRingEnd ℂ (z 0) * z j).im := by
  have hne := ne_zero_of_turn h
  have him (j : ℕ) : (starRingEnd ℂ (z 0) * z j).im = ‖z 0‖ * ‖z j‖ * Real.sin (angleTo z j) := by
    rw [conj_mul_eq_exp hne, Complex.im_ofReal_mul, Complex.exp_ofReal_mul_I_im]
  have hzero : ∑ j ∈ Finset.range n, (starRingEnd ℂ (z 0) * z j).im = 0 := by
    rw [← Complex.im_sum, ← Finset.mul_sum, hclosed, mul_zero, Complex.zero_im]
  have hmono : StrictMono (angleTo z) := by
    refine strictMono_nat_of_lt_succ fun j => ?_
    rw [angleTo_succ]
    exact lt_add_of_pos_right _ (turnAt_mem h j).1
  have hfirst : angleTo z 1 < Real.pi := by
    rw [angleTo_succ, angleTo_zero, zero_add]
    exact (turnAt_mem h 0).2
  simp only [him] at hzero ⊢
  refine sum_sin_pos (fun j => ?_) hmono (angleTo_zero z) hfirst honce hzero hm hmn
  exact mul_pos (norm_pos_iff.mpr (hne 0)) (norm_pos_iff.mpr (hne j))

/-- In a mirror the angle has the other sign. -/
theorem angleTo_conj (h : ∀ k, (starRingEnd ℂ (z k) * z (k + 1)).im ≠ 0) (m : ℕ) :
    angleTo (fun k => starRingEnd ℂ (z k)) m = -angleTo z m := by
  rw [angleTo, angleTo, ← Finset.sum_neg_distrib]
  refine Finset.sum_congr rfl fun k _ => ?_
  have hpi : (starRingEnd ℂ (z k) * z (k + 1)).arg ≠ Real.pi :=
    fun hpi => h k (Complex.arg_eq_pi_iff.mp hpi).2
  rw [turnAt, turnAt, ← map_mul, Complex.arg_conj, if_neg hpi]

/-- A closed walk that turns to one side at every step, and fully once, stays on that side of its first
step. -/
theorem sum_im_pos_of_turn {sense : ℝ} (hsense : sense = 1 ∨ sense = -1) {n m : ℕ}
    (h : ∀ k, 0 < sense * (starRingEnd ℂ (z k) * z (k + 1)).im)
    (honce : angleTo z n = sense * (2 * Real.pi)) (hclosed : ∑ k ∈ Finset.range n, z k = 0)
    (hm : 2 ≤ m) (hmn : m < n) :
    0 < sense * ∑ j ∈ Finset.range m, (starRingEnd ℂ (z 0) * z j).im := by
  rcases hsense with rfl | rfl
  · simp only [one_mul] at h honce ⊢
    exact sum_im_pos_of_left h honce hclosed hm hmn
  -- a walk to the right is one to the left in a mirror
  · have hmirror (j k : ℕ) : (starRingEnd ℂ (starRingEnd ℂ (z j)) * starRingEnd ℂ (z k)).im =
        -1 * (starRingEnd ℂ (z j) * z k).im := by
      rw [← map_mul, Complex.conj_im, neg_one_mul]
    have hleft (k : ℕ) :
        0 < (starRingEnd ℂ (starRingEnd ℂ (z k)) * starRingEnd ℂ (z (k + 1))).im := by
      rw [hmirror]
      exact h k
    have hne (k : ℕ) : (starRingEnd ℂ (z k) * z (k + 1)).im ≠ 0 :=
      (mul_ne_zero_iff.mp (h k).ne').2
    have honce' : angleTo (fun k => starRingEnd ℂ (z k)) n = 2 * Real.pi := by
      rw [angleTo_conj hne, honce, neg_one_mul, neg_neg]
    have hclosed' : ∑ k ∈ Finset.range n, starRingEnd ℂ (z k) = 0 := by
      rw [← map_sum, hclosed, map_zero]
    have hpos := sum_im_pos_of_left hleft honce' hclosed' hm hmn
    simp only [hmirror] at hpos
    rwa [← Finset.mul_sum] at hpos

end turns

end TriMesh
