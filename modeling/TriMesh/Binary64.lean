/-! # The parts of a double

A finite double is an integer multiple of a power of two. `significand` and `exponent` give that
form of its absolute value, `scaled` the double itself as a multiple of `2 ^ -1074`, the least
positive double. Exact comparisons and exact products of doubles are taken on these integers. -/

namespace TriMesh.Binary64

/-- The eleven exponent bits. -/
def exponentBits (x : Float) : Nat := (x.toBits >>> 52).toNat % 2048

/-- The weight of the bit that is implied before the fraction: two to the power fifty-two. -/
def hiddenBit : Nat := 4503599627370496

/-- The fifty-two fraction bits. -/
def fractionBits (x : Float) : Nat := x.toBits.toNat % hiddenBit

/-- The sign bit is set; this tells the two zeros apart. -/
def isNegative (x : Float) : Bool := x.toBits >>> 63 == 1

/-- The integer `m` of a finite double's absolute value `m * 2 ^ exponent`. -/
def significand (x : Float) : Nat :=
  if exponentBits x = 0 then fractionBits x else fractionBits x + hiddenBit

/-- The exponent of two of a finite double, at least `-1074`. -/
def exponent (x : Float) : Int :=
  if exponentBits x = 0 then -1074 else (exponentBits x : Int) - 1075

/-- A finite double divided by `2 ^ -1074`, which is always an integer. -/
def scaled (x : Float) : Int :=
  let n := significand x <<< (exponent x + 1074).toNat
  if isNegative x then -(n : Int) else n

end TriMesh.Binary64
