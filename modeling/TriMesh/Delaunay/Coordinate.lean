import TriMesh.Error
import TriMesh.Vector

/-! # Coordinates

Points are taken with coordinates that are zero or of moderate size. Any other coordinate of a given
point is a fault; a computed coordinate that is too small counts as zero. -/

namespace TriMesh.Delaunay

/-- The least coordinate apart from zero: `2 ^ -142`. -/
def leastCoordinate : Float := 1.793662034335766e-43

/-- The greatest coordinate: `2 ^ 201`. -/
def greatestCoordinate : Float := 3.2138760885179806e60

/-- The coordinate is too close to zero, but not zero. -/
def isTooSmall (c : Float) : Bool := c != 0 && c.abs < leastCoordinate

/-- Why a coordinate is refused, if it is. -/
def coordinateFault? (c : Float) : Option CoordinateFault :=
  if c.isNaN then some .notANumber
  else if isTooSmall c then some .tooSmall
  else if greatestCoordinate < c.abs then some .tooLarge
  else none

/-- Why a point is refused, if it is; the first coordinate is looked at first. -/
def pointFault? (p : Vec2 Float) : Option CoordinateFault :=
  (coordinateFault? p.x).or (coordinateFault? p.y)

/-- Zero in the place of a coordinate that is too small. -/
def orZero (c : Float) : Float := if isTooSmall c then 0 else c

end TriMesh.Delaunay
