/-! # Scalars

The number type of the geometry. All generators, transforms and tests are written once, over any
type with a `Scalar` instance, so that the same definitions run on doubles and can be read with
exact reals.

* **Laws.** The class asks for none: doubles satisfy hardly any. Statements about lengths and
  directions are made at an instance that has them.
* **Numerals.** Constants are built from `0`, `1` and counts. A decimal constant is a quotient of
  two counts (`Scalar.ratio`); in doubles both counts are exact and the quotient is rounded once,
  so it is the double nearest to the decimal.
* **Order of operations.** In doubles it matters and is part of every definition below: sums are
  taken from left to right, and nothing is fused. -/

namespace TriMesh

/-- A type of numbers with the operations that the geometry uses. -/
class Scalar (α : Type) extends
    Add α, Sub α, Mul α, Div α, Neg α, Zero α, One α, NatCast α, LT α, LE α, BEq α where
  /-- Less-than can be tested. -/
  decLt : DecidableLT α
  /-- At-most can be tested. -/
  decLe : DecidableLE α
  /-- Square root. -/
  sqrt : α → α
  /-- Sine of an angle in radians. -/
  sin : α → α
  /-- Cosine of an angle in radians. -/
  cos : α → α
  /-- Half of a full turn, in radians. -/
  pi : α
  /-- Neither infinite nor undefined. -/
  isFinite : α → Bool
  /-- One with the sign of the argument, where a zero may carry a sign too. -/
  unitSign : α → α

namespace Scalar

variable {α : Type} [Scalar α]

instance : DecidableLT α := Scalar.decLt

instance : DecidableLE α := Scalar.decLe

/-- The quotient of two counts. -/
def ratio (p q : Nat) : α := (p : α) / (q : α)

/-- One half. -/
def half : α := ratio 1 2

/-- The count two. -/
def two : α := ((2 : Nat) : α)

/-- The count three. -/
def three : α := ((3 : Nat) : α)

/-- A full turn, in radians. -/
def tau : α := pi + pi

/-- Absolute value. -/
def abs (x : α) : α := if x < 0 then -x else x

/-- The lesser of two scalars; an operand that differs from itself is passed over. -/
def min (a b : α) : α := if a < b then a else if b == b then b else a

/-- The greater of two scalars; an operand that differs from itself is passed over. -/
def max (a b : α) : α := if b < a then a else if b == b then b else a

end Scalar

/-! ### Doubles -/

/-- One with the sign bit of a double. -/
def Scalar.doubleUnitSign (x : Float) : Float := if x.toBits >>> 63 == 1 then -1 else 1

instance : Scalar Float where
  zero := 0
  one := 1
  natCast := Float.ofNat
  decLt a b := Float.decLt a b
  decLe a b := Float.decLe a b
  sqrt := Float.sqrt
  sin := Float.sin
  cos := Float.cos
  pi := 3.141592653589793
  isFinite := Float.isFinite
  unitSign := Scalar.doubleUnitSign

end TriMesh
