import Mathlib.Analysis.Complex.Norm
import TriMesh.Proofs.Reals

/-! # The plane as complex numbers

Points and directions of the plane read as complex numbers, so that lengths and distances are those of
the complex plane, and the two products of directions are the parts of one product
(`conj_mul_toComplex`). -/

namespace TriMesh

namespace Vec2

/-- The point with first component as real part and second component as imaginary part. -/
def toComplex (a : Vec2 ℝ) : ℂ := ⟨a.x, a.y⟩

@[simp] theorem toComplex_re (a : Vec2 ℝ) : a.toComplex.re = a.x := rfl
@[simp] theorem toComplex_im (a : Vec2 ℝ) : a.toComplex.im = a.y := rfl

theorem toComplex_sub (a b : Vec2 ℝ) : (a - b).toComplex = a.toComplex - b.toComplex := rfl

theorem length_eq_norm (a : Vec2 ℝ) : a.length = ‖a.toComplex‖ := by
  rw [Complex.norm_eq_sqrt_sq_add_sq]
  simp only [length, Scalar.real_sqrt, dot_eq, toComplex_re, toComplex_im, sq]

theorem distance_eq_norm (a b : Vec2 ℝ) : a.distance b = ‖a.toComplex - b.toComplex‖ := by
  rw [← toComplex_sub]
  exact (a - b).length_eq_norm

/-- Inner product and signed area of two directions are the parts of one product. -/
theorem conj_mul_toComplex (a b : Vec2 ℝ) :
    starRingEnd ℂ a.toComplex * b.toComplex = ⟨a.dot b, a.perpDot b⟩ := by
  apply Complex.ext
  · simp only [Complex.mul_re, Complex.conj_re, Complex.conj_im, toComplex_re, toComplex_im, dot_eq]
    ring
  · simp only [Complex.mul_im, Complex.conj_re, Complex.conj_im, toComplex_re, toComplex_im,
      perpDot_eq]
    ring

end Vec2

end TriMesh
