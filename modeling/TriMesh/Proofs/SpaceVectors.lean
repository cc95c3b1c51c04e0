import TriMesh.Proofs.PlaneLayers

/-! # Vectors of exact space

Sums and directions of vectors with exact scalars.

* Vectors are a commutative group, and the inner product with a fixed vector is a homomorphism
  (`dotRight`), so a sum is measured along a direction term by term (`sum_dot`).
* `normalizeOrZero` multiplies by a positive factor, whatever the vector is
  (`exists_normalizeOrZero_eq`); of a vector other than zero it makes one of length 1
  (`length_normalizeOrZero`). -/

namespace TriMesh.Vec3

/-! ### Sums -/

noncomputable instance : AddCommGroup (Vec3 ℝ) where
  add_assoc _ _ _ := Vec3.ext (add_assoc _ _ _) (add_assoc _ _ _) (add_assoc _ _ _)
  zero_add _ := Vec3.ext (zero_add _) (zero_add _) (zero_add _)
  add_zero _ := Vec3.ext (add_zero _) (add_zero _) (add_zero _)
  add_comm _ _ := Vec3.ext (add_comm _ _) (add_comm _ _) (add_comm _ _)
  sub_eq_add_neg _ _ := Vec3.ext (sub_eq_add_neg _ _) (sub_eq_add_neg _ _) (sub_eq_add_neg _ _)
  neg_add_cancel _ := Vec3.ext (neg_add_cancel _) (neg_add_cancel _) (neg_add_cancel _)
  nsmul := nsmulRec
  zsmul := zsmulRec

variable {v : Vec3 ℝ}

theorem add_dot (a b r : Vec3 ℝ) : (a + b).dot r = a.dot r + b.dot r := by
  simp only [dot_eq, add_x, add_y, add_z]
  ring

theorem mul_dot (a r : Vec3 ℝ) (c : ℝ) : (a * c).dot r = c * a.dot r := by
  simp only [dot_eq, mul_x, mul_y, mul_z]
  ring

theorem zero_dot (r : Vec3 ℝ) : (0 : Vec3 ℝ).dot r = 0 := by
  simp only [dot_eq, zero_x, zero_y, zero_z, zero_mul, add_zero]

/-- The measure of vectors along a direction. -/
noncomputable def dotRight (r : Vec3 ℝ) : Vec3 ℝ →+ ℝ where
  toFun v := v.dot r
  map_zero' := zero_dot r
  map_add' a b := add_dot a b r

theorem sum_dot (vs : List (Vec3 ℝ)) (r : Vec3 ℝ) : vs.sum.dot r = (vs.map fun v => v.dot r).sum :=
  map_list_sum (dotRight r) vs

theorem nsmul_dot (k : ℕ) (v r : Vec3 ℝ) : (k • v).dot r = k * v.dot r :=
  (map_nsmul (dotRight r) k v).trans (nsmul_eq_mul _ _)

theorem zero_mul_scalar (c : ℝ) : (0 : Vec3 ℝ) * c = 0 :=
  Vec3.ext (zero_mul c) (zero_mul c) (zero_mul c)

theorem neg_mul_scalar (v : Vec3 ℝ) (c : ℝ) : -v * c = -(v * c) :=
  Vec3.ext (neg_mul _ _) (neg_mul _ _) (neg_mul _ _)

/-- A vector taken several times is made longer. -/
theorem nsmul_eq_mul_cast (k : ℕ) (v : Vec3 ℝ) : k • v = v * (k : ℝ) := by
  induction k with
  | zero =>
      rw [zero_nsmul, Nat.cast_zero]
      exact (Vec3.ext (mul_zero _) (mul_zero _) (mul_zero _)).symm
  | succ k ih =>
      rw [succ_nsmul, ih, Nat.cast_succ]
      exact (Vec3.ext (mul_add_one _ _) (mul_add_one _ _) (mul_add_one _ _)).symm

/-! ### Directions -/

theorem normalizeOrZero_of_ne (hv : v ≠ 0) : v.normalizeOrZero = v * (1 / v.length) := by
  rw [normalizeOrZero, tryNormalize_eq hv]
  rfl

@[simp] theorem normalizeOrZero_zero : (0 : Vec3 ℝ).normalizeOrZero = 0 := by
  have hlength : (0 : Vec3 ℝ).length = 0 := by
    rw [length, zero_dot]
    exact Real.sqrt_zero
  have hnone : (0 : Vec3 ℝ).tryNormalize = none := by
    refine if_neg fun h => ?_
    rw [hlength, div_zero] at h
    exact lt_irrefl 0 h.2
  rw [normalizeOrZero, hnone, Option.getD_none]

/-- Normalizing changes a vector by a positive factor at most. -/
theorem exists_normalizeOrZero_eq (v : Vec3 ℝ) : ∃ c : ℝ, 0 < c ∧ v.normalizeOrZero = v * c := by
  by_cases hv : v = 0
  · refine ⟨1, one_pos, ?_⟩
    rw [hv, normalizeOrZero_zero, zero_mul_scalar]
  · exact ⟨1 / v.length, one_div_pos.mpr (length_pos hv), normalizeOrZero_of_ne hv⟩

theorem length_normalizeOrZero (hv : v ≠ 0) : v.normalizeOrZero.length = 1 := by
  have hunit : v.normalizeOrZero.dot v.normalizeOrZero = 1 := by
    rw [normalizeOrZero, tryNormalize_eq hv]
    exact dot_self_normalize hv
  rw [length, hunit]
  exact Real.sqrt_one

theorem normalizeOrZero_eq_zero_or (v : Vec3 ℝ) : v.normalizeOrZero = 0 ∨ v.normalizeOrZero.length = 1 := by
  by_cases hv : v = 0
  · rw [hv]
    exact Or.inl normalizeOrZero_zero
  · exact Or.inr (length_normalizeOrZero hv)

theorem normalizeOrZero_neg (v : Vec3 ℝ) : (-v).normalizeOrZero = -v.normalizeOrZero := by
  by_cases hv : v = 0
  · rw [hv, neg_zero, normalizeOrZero_zero, neg_zero]
  · have hlength : (-v).length = v.length := by rw [length, dot_neg_neg, length]
    rw [normalizeOrZero_of_ne (neg_ne_zero.mpr hv), normalizeOrZero_of_ne hv, hlength, neg_mul_scalar]

/-- Along any direction a vector and its unit vector have one sign. -/
theorem normalizeOrZero_dot_pos_iff {r : Vec3 ℝ} : 0 < v.normalizeOrZero.dot r ↔ 0 < v.dot r := by
  obtain ⟨c, hc, heq⟩ := exists_normalizeOrZero_eq v
  rw [heq, mul_dot, mul_pos_iff_of_pos_left hc]

end TriMesh.Vec3
