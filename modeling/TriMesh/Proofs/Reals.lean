import Mathlib.Analysis.SpecialFunctions.Trigonometric.Basic
import Mathlib.Tactic
import TriMesh.SubMesh.Validity

/-! # Exact scalars

The geometry read with real numbers: square root, sine and cosine are the real functions, every
number is finite, and `x / 0` is `0` as always for reals.  The lemmas below turn the constants and
the vector operations of the geometry into arithmetic of components, tagged for `simp`. -/

namespace TriMesh

noncomputable instance : Scalar ℝ where
  toBEq := instBEqOfDecidableEq
  decLt := inferInstance
  decLe := inferInstance
  sqrt := Real.sqrt
  sin := Real.sin
  cos := Real.cos
  pi := Real.pi
  isFinite _ := true
  unitSign x := if x < 0 then -1 else 1

noncomputable instance : DecidableEq (Vec2 ℝ) := Classical.decEq _

noncomputable instance : DecidableEq (Vec3 ℝ) := Classical.decEq _

/-! ### Constants and functions -/

namespace Scalar

@[simp] theorem real_sqrt (x : ℝ) : Scalar.sqrt x = Real.sqrt x := rfl
@[simp] theorem real_sin (x : ℝ) : Scalar.sin x = Real.sin x := rfl
@[simp] theorem real_cos (x : ℝ) : Scalar.cos x = Real.cos x := rfl
@[simp] theorem real_pi : (Scalar.pi : ℝ) = Real.pi := rfl
@[simp] theorem real_isFinite (x : ℝ) : Scalar.isFinite x = true := rfl

theorem real_unitSign (x : ℝ) : Scalar.unitSign x = if x < 0 then -1 else 1 := rfl

@[simp] theorem real_ratio (p q : ℕ) : (ratio p q : ℝ) = (p : ℝ) / (q : ℝ) := rfl

@[simp] theorem real_half : (half : ℝ) = 1 / 2 := by
  simp [half]

@[simp] theorem real_two : (two : ℝ) = 2 := by
  simp [two]

@[simp] theorem real_three : (three : ℝ) = 3 := by
  simp [three]

@[simp] theorem real_tau : (tau : ℝ) = 2 * Real.pi := by
  simp only [tau, real_pi]
  ring

theorem real_min (x y : ℝ) : Scalar.min x y = Min.min x y := by
  unfold Scalar.min
  by_cases h : x < y
  · rw [if_pos h, min_eq_left h.le]
  · rw [if_neg h, if_pos (by simp), min_eq_right (not_lt.mp h)]

theorem real_max (x y : ℝ) : Scalar.max x y = Max.max x y := by
  unfold Scalar.max
  by_cases h : y < x
  · rw [if_pos h, max_eq_left h.le]
  · rw [if_neg h, if_pos (by simp), max_eq_right (not_lt.mp h)]

end Scalar

/-! ### Vectors by components -/

namespace Vec2

attribute [ext] Vec2

variable (a b : Vec2 ℝ) (s : ℝ)

@[simp] theorem zero_x : (0 : Vec2 ℝ).x = 0 := rfl
@[simp] theorem zero_y : (0 : Vec2 ℝ).y = 0 := rfl
@[simp] theorem add_x : (a + b).x = a.x + b.x := rfl
@[simp] theorem add_y : (a + b).y = a.y + b.y := rfl
@[simp] theorem sub_x : (a - b).x = a.x - b.x := rfl
@[simp] theorem sub_y : (a - b).y = a.y - b.y := rfl
@[simp] theorem neg_x : (-a).x = -a.x := rfl
@[simp] theorem neg_y : (-a).y = -a.y := rfl
@[simp] theorem mul_x : (a * s).x = a.x * s := rfl
@[simp] theorem mul_y : (a * s).y = a.y * s := rfl

/-- Exact points are compared by equality. -/
theorem beq_iff : (a == b) = true ↔ a = b := by
  constructor
  · intro h
    obtain ⟨hx, hy⟩ := (Bool.and_eq_true _ _).mp h
    exact Vec2.ext (decide_eq_true_iff.mp hx) (decide_eq_true_iff.mp hy)
  · rintro rfl
    exact (Bool.and_eq_true _ _).mpr ⟨decide_eq_true rfl, decide_eq_true rfl⟩

theorem dot_eq : a.dot b = a.x * b.x + a.y * b.y := rfl

theorem perpDot_eq : a.perpDot b = a.x * b.y - a.y * b.x := rfl

end Vec2

namespace Vec3

attribute [ext] Vec3

variable (a b : Vec3 ℝ) (s : ℝ)

@[simp] theorem zero_x : (0 : Vec3 ℝ).x = 0 := rfl
@[simp] theorem zero_y : (0 : Vec3 ℝ).y = 0 := rfl
@[simp] theorem zero_z : (0 : Vec3 ℝ).z = 0 := rfl
@[simp] theorem add_x : (a + b).x = a.x + b.x := rfl
@[simp] theorem add_y : (a + b).y = a.y + b.y := rfl
@[simp] theorem add_z : (a + b).z = a.z + b.z := rfl
@[simp] theorem sub_x : (a - b).x = a.x - b.x := rfl
@[simp] theorem sub_y : (a - b).y = a.y - b.y := rfl
@[simp] theorem sub_z : (a - b).z = a.z - b.z := rfl
@[simp] theorem neg_x : (-a).x = -a.x := rfl
@[simp] theorem neg_y : (-a).y = -a.y := rfl
@[simp] theorem neg_z : (-a).z = -a.z := rfl
@[simp] theorem mul_x : (a * s).x = a.x * s := rfl
@[simp] theorem mul_y : (a * s).y = a.y * s := rfl
@[simp] theorem mul_z : (a * s).z = a.z * s := rfl
@[simp] theorem div_x : (a / s).x = a.x / s := rfl
@[simp] theorem div_y : (a / s).y = a.y / s := rfl
@[simp] theorem div_z : (a / s).z = a.z / s := rfl

theorem dot_eq : a.dot b = a.x * b.x + a.y * b.y + a.z * b.z := rfl

theorem cross_x : (a.cross b).x = a.y * b.z - b.y * a.z := rfl

theorem cross_y : (a.cross b).y = a.z * b.x - b.z * a.x := rfl

theorem cross_z : (a.cross b).z = a.x * b.y - b.x * a.y := rfl

end Vec3

end TriMesh
