import TriMesh.Delaunay.Arrangement
import TriMesh.Delaunay.Coordinate

/-! # Crossings

Where a way from one site to another crosses a segment, the segment is divided. The crossing of the
two lines, rounded to a double point, is as a rule not exactly on either, so it cannot always serve.

* **Corners.** The triangle beside a segment has for its third corner the site that sees the segment
  under the widest angle, among those that no other segment hides (`corner?`).
* **Division.** The rounded crossing divides the segment if it falls on it or inside a triangle beside
  it, since the two parts then stay clear of every other segment. Otherwise a site stands very near,
  and the nearest corner of the two triangles serves in place of the crossing (`division`). -/

namespace TriMesh.Delaunay

/-- Where a crossed segment is divided. -/
inductive Division where
  /-- At a new point. -/
  | fresh (p : Vec2 Float)
  /-- At a site. -/
  | existing (i : Nat)
deriving Repr

/-- The point where the lines through two pairs of points meet, rounded; there is none if they are
parallel up to rounding. -/
def lineCrossing? (p q r s : Vec2 Float) : Option (Vec2 Float) :=
  let a1 := q.y - p.y
  let b1 := p.x - q.x
  let c1 := a1 * p.x + b1 * p.y
  let a2 := s.y - r.y
  let b2 := r.x - s.x
  let c2 := a2 * r.x + b2 * r.y
  let det := a1 * b2 - a2 * b1
  if det == 0 then none
  else some ⟨orZero ((b2 * c1 - b1 * c2) / det), orZero ((a1 * c2 - a2 * c1) / det)⟩

namespace Arrangement

/-- How far along from `u` to `v` a crossing segment meets it: a fraction of two positive integers. -/
def crossingShare (m : Arrangement) (u v : Nat) (s : Nat × Nat) : Nat × Nat :=
  let before := (ExactPoint.turn (m.exact s.1) (m.exact s.2) (m.exact u)).natAbs
  let after := (ExactPoint.turn (m.exact s.1) (m.exact s.2) (m.exact v)).natAbs
  (before, before + after)

/-- The way from `u` to `v` crosses a segment between the ends of both. -/
def crosses (m : Arrangement) (u v : Nat) (s : Nat × Nat) : Bool :=
  ExactPoint.crosses (m.exact u) (m.exact v) (m.exact s.1) (m.exact s.2)

/-- The first segment that crosses the way from `u` to `v`, directed so that `v` is on its left. -/
def firstCrossing? (m : Arrangement) (u v : Nat) : Option (Nat × Nat) :=
  let nearer (s t : Nat × Nat) : Bool :=
    let p := m.crossingShare u v s
    let q := m.crossingShare u v t
    p.1 * q.2 ≤ q.1 * p.2
  ((m.segments.filter (m.crosses u v)).mergeSort nearer).head?.map fun s =>
    if 0 < ExactPoint.turn (m.exact s.1) (m.exact s.2) (m.exact v) then s else (s.2, s.1)

/-- The site is on the left of a segment, sees it under a wider angle than another one, if one is
given, and is not hidden from it by a further segment. -/
def overlooks (m : Arrangement) (s : Nat × Nat) (other : Option Nat) (i : Nat) : Bool :=
  0 < ExactPoint.turn (m.exact s.1) (m.exact s.2) (m.exact i) &&
    (other.all fun c =>
      0 < ExactPoint.inCircle (m.exact s.1) (m.exact s.2) (m.exact c) (m.exact i)) &&
    m.segments.all fun t => !m.crosses s.1 i t && !m.crosses s.2 i t

/-- The third corner of the triangle on the left of a segment. -/
def corner? (m : Arrangement) (s : Nat × Nat) : Option Nat :=
  (List.range m.sites.size).foldl
    (fun best i => if m.overlooks s best i then some i else best) none

/-- The point lies inside the triangle on the left of a segment, not on an edge. -/
def enclosesLeft (m : Arrangement) (s : Nat × Nat) (p : ExactPoint) : Bool :=
  0 < ExactPoint.turn (m.exact s.1) (m.exact s.2) p &&
    (m.corner? s).any fun c =>
      0 < ExactPoint.turn (m.exact s.2) (m.exact c) p &&
        0 < ExactPoint.turn (m.exact c) (m.exact s.1) p

/-- The site nearest to a point, the earlier one of two that are as near. -/
def nearest (m : Arrangement) (p : ExactPoint) (first : Nat) (rest : List Nat) : Nat :=
  let gap (i : Nat) : Int := ExactPoint.dotFrom p (m.exact i) (m.exact i)
  rest.foldl (fun c i => if gap i < gap c then i else c) first

/-- Where a segment is divided for a crossing computed at `p`. -/
def divisionAt (m : Arrangement) (s : Nat × Nat) (p : Vec2 Float) : Division :=
  let back := (s.2, s.1)
  let e := ExactPoint.ofVec2 p
  if ExactPoint.between (m.exact s.1) (m.exact s.2) e || m.enclosesLeft s e ||
      m.enclosesLeft back e then .fresh p
  else .existing (m.nearest e s.1 (s.2 :: [m.corner? s, m.corner? back].filterMap id))

/-- Where a segment is divided for the way from `u` to `v`, which crosses it. -/
def division (m : Arrangement) (s : Nat × Nat) (u v : Nat) : Division :=
  match lineCrossing? (m.position s.1) (m.position s.2) (m.position u) (m.position v) with
  | none => .existing s.1
  | some p => m.divisionAt s p

end Arrangement

end TriMesh.Delaunay
