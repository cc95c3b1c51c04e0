import TriMesh.Binary64
import TriMesh.Vector

/-! # Exact predicates

Tests on points of the plane that do not round. The coordinates of a double point are integer
multiples of the least double, so turns, circles and crossings are signs of integer expressions. -/

namespace TriMesh.Delaunay

/-- A point of the plane with integer coordinates. -/
structure ExactPoint where
  /-- First coordinate. -/
  x : Int
  /-- Second coordinate. -/
  y : Int
deriving DecidableEq, Repr, Inhabited

namespace ExactPoint

/-- A finite double point in units of the least double. -/
def ofVec2 (p : Vec2 Float) : ExactPoint := ⟨Binary64.scaled p.x, Binary64.scaled p.y⟩

/-- The inner product of the directions from `o` to `p` and from `o` to `q`. -/
def dotFrom (o p q : ExactPoint) : Int := (p.x - o.x) * (q.x - o.x) + (p.y - o.y) * (q.y - o.y)

/-- Twice the signed area of a triangle, positive if its corners run counter-clockwise. -/
def turn (a b c : ExactPoint) : Int := (b.x - a.x) * (c.y - a.y) - (b.y - a.y) * (c.x - a.x)

/-- Positive if `d` lies inside the circle through the counter-clockwise triangle `a b c`. -/
def inCircle (a b c d : ExactPoint) : Int :=
  dotFrom d a a * turn d b c - dotFrom d b b * turn d a c + dotFrom d c c * turn d a b

/-- The point lies between the ends of a segment. -/
def between (a b p : ExactPoint) : Bool :=
  turn a b p = 0 && 0 < dotFrom a p b && 0 < dotFrom b p a

/-- The line through `a` and `b` runs between two points and through none of them. -/
def separates (a b p q : ExactPoint) : Bool :=
  let m := turn a b p
  let n := turn a b q
  m < 0 && 0 < n || 0 < m && n < 0

/-- Two segments cross at a point between the ends of both. -/
def crosses (a b c d : ExactPoint) : Bool := separates a b c d && separates c d a b

/-- Order by the first coordinate, then by the second. -/
def precedes (p q : ExactPoint) : Bool := p.x < q.x || p.x = q.x && p.y ≤ q.y

end ExactPoint

end TriMesh.Delaunay
