import TriMesh.Scalar

/-! # Tolerances

The thresholds below which two scalars count as equal, a point as matched and a triangle as flat. -/

namespace TriMesh.Tolerance

variable {α : Type} [Scalar α]

/-- Scalars closer than this are equal for practical purposes. -/
def epsilon : α := Scalar.ratio 1 10000000000

/-- The tolerance for matching points, relative to the extent of the figure. -/
def pointMatchFactor : α := Scalar.ratio 1 1000000

/-- A triangle with a face vector shorter than this has no area. -/
def degenerateArea : α := Scalar.ratio 1 1000000000000

/-- The tolerance for matching points of a figure with the given extent. -/
def pointMatch (extent : α) : α := extent * pointMatchFactor

/-- Two scalars are closer than `epsilon`. -/
def approxEqual (a b : α) : Bool := Scalar.abs (a - b) < epsilon

/-- A scalar is closer to zero than `epsilon`. -/
def approxZero (a : α) : Bool := Scalar.abs a < epsilon

end TriMesh.Tolerance
