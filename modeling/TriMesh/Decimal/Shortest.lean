import TriMesh.Binary64

/-! # Shortest decimals

The fewest decimal digits that single a double out, and their positional text.

* **Digits.** The reals that round to a positive double form an interval, with its ends exactly if
  the significand is even. On the grid of decimals with `n` digits only the two neighbours of the
  double have to be tried: if any point of the grid lies in the interval, one of them does. The
  first grid with a hit wins; of two hits the nearer is taken, and of two equally near ones the
  greater. The first grid of all is coarser than the double, for a double just below a power of ten
  may be singled out by that power.
* **Text.** Always positional, without an exponent and without a point if there is nothing behind
  it. A negative zero keeps its sign. -/

namespace TriMesh.Decimal

/-- A decimal `digits * 10 ^ exponent`. -/
structure Scientific where
  /-- The digits, read as one number. -/
  digits : Nat
  /-- The power of ten of the last digit. -/
  exponent : Int
deriving DecidableEq, Repr

/-- A fraction of two natural numbers that stands for a positive real. -/
structure Fraction where
  /-- Numerator. -/
  num : Nat
  /-- Denominator, positive. -/
  den : Nat
deriving Repr

namespace Fraction

/-- The fraction `n * 2 ^ e`. -/
def ofBinary (n : Nat) (e : Int) : Fraction :=
  if 0 ≤ e then ⟨n <<< e.toNat, 1⟩ else ⟨n, 1 <<< (-e).toNat⟩

/-- The fraction divided by `10 ^ k`. -/
def shiftDown (f : Fraction) (k : Int) : Fraction :=
  if 0 ≤ k then ⟨f.num, f.den * Nat.pow 10 k.toNat⟩
  else ⟨f.num * Nat.pow 10 (-k).toNat, f.den⟩

/-- The power of ten of the leading decimal digit. -/
def leadingExponent (f : Fraction) : Int :=
  if f.den ≤ f.num then (Nat.toDigits 10 (f.num / f.den)).length - 1
  else
    let d := (Nat.toDigits 10 (f.den / f.num)).length
    if f.num * Nat.pow 10 (d - 1) = f.den then 1 - (d : Int) else -(d : Int)

end Fraction

/-- The reals that round to one positive double, all three bounds divided by the same power of two:
the double is `mid`, the ends belong to the interval if `closed`. -/
structure RoundingInterval where
  /-- Lower end. -/
  low : Nat
  /-- The double. -/
  mid : Nat
  /-- Upper end. -/
  high : Nat
  /-- The power of two by which the bounds were divided. -/
  scale : Int
  /-- The ends round to the double too. -/
  closed : Bool
deriving Repr

/-- The interval of a positive finite double. Below a power of two the next double is only half as
far away as above it, except at the least exponent. -/
def RoundingInterval.ofDouble (x : Float) : RoundingInterval :=
  let m := Binary64.significand x
  let e := Binary64.exponent x
  { low := if m = Binary64.hiddenBit ∧ -1074 < e then 4 * m - 1 else 4 * m - 2
    mid := 4 * m
    high := 4 * m + 2
    scale := e - 2
    closed := m % 2 = 0 }

/-- The point `c * 10 ^ k` lies in the interval. -/
def RoundingInterval.contains (i : RoundingInterval) (c : Nat) (k : Int) : Bool :=
  let lo := (Fraction.ofBinary i.low i.scale).shiftDown k
  let hi := (Fraction.ofBinary i.high i.scale).shiftDown k
  if i.closed then decide (lo.num ≤ c * lo.den ∧ c * hi.den ≤ hi.num)
  else decide (lo.num < c * lo.den ∧ c * hi.den < hi.num)

/-- The neighbour of the double on the grid `10 ^ k` that reads back, if one does. -/
def RoundingInterval.onGrid? (i : RoundingInterval) (k : Int) : Option Scientific :=
  let f := (Fraction.ofBinary i.mid i.scale).shiftDown k
  let c := f.num / f.den
  match i.contains c k, i.contains (c + 1) k with
  | true, true => some ⟨if 2 * (f.num % f.den) < f.den then c else c + 1, k⟩
  | true, false => some ⟨c, k⟩
  | false, true => some ⟨c + 1, k⟩
  | false, false => none

/-- The shortest decimal of a positive finite double. Seventeen digits always suffice. -/
def shortest (x : Float) : Scientific :=
  let i := RoundingInterval.ofDouble x
  let lead := (Fraction.ofBinary i.mid i.scale).leadingExponent
  let grids := (List.range 18).map fun n : Nat => lead + 1 - n
  (grids.findSome? i.onGrid?).getD ⟨0, 0⟩

/-- The digits of a decimal with a point where it belongs. -/
def Scientific.positional (s : Scientific) : List Char :=
  let ds := Nat.toDigits 10 s.digits
  if 0 ≤ s.exponent then ds ++ List.replicate s.exponent.toNat '0'
  else
    let places := (-s.exponent).toNat
    let padded := List.replicate (places + 1 - ds.length) '0' ++ ds
    padded.take (padded.length - places) ++ '.' :: padded.drop (padded.length - places)

/-- A double in words that read back: a plain decimal, or `NaN`, `inf`, `-inf`. -/
def ofDouble (x : Float) : String :=
  if x.isNaN then "NaN"
  else
    let sign := if Binary64.isNegative x then "-" else ""
    if x.isInf then sign ++ "inf"
    else if x == 0 then sign ++ "0"
    else sign ++ String.ofList (shortest x).positional

end TriMesh.Decimal
