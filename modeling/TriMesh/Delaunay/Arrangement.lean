import TriMesh.Delaunay.Exact
import TriMesh.Polygon

/-! # Arrangements of segments

Points and the segments between them, kept so that segments meet only at points.

* **Points.** No two have the same coordinates. A point that falls on a segment divides it.
* **Segments** are unordered. One that is led through a further point gives way to its two parts. -/

namespace TriMesh.Delaunay

/-- A point with its exact coordinates. -/
structure Site where
  /-- The point as it was given. -/
  position : Vec2 Float
  /-- The same point in integers. -/
  exact : ExactPoint
deriving Repr, Inhabited

/-- The site of a finite double point. -/
def Site.ofVec2 (p : Vec2 Float) : Site := ⟨p, .ofVec2 p⟩

/-- Points and the segments between them. -/
structure Arrangement where
  /-- The points; no two have the same coordinates. -/
  sites : Array Site := #[]
  /-- The segments, by the indices of their ends. -/
  segments : List (Nat × Nat) := []
deriving Repr

namespace Arrangement

/-- The exact coordinates of a site. -/
def exact (m : Arrangement) (i : Nat) : ExactPoint := (m.sites[i]?.getD default).exact

/-- The position of a site. -/
def position (m : Arrangement) (i : Nat) : Vec2 Float := (m.sites[i]?.getD default).position

/-- All sites lie on the line through the first two. -/
def isFlat (m : Arrangement) : Bool :=
  m.sites.all fun s => ExactPoint.turn (m.exact 0) (m.exact 1) s.exact = 0

/-- The point added, with its index. A point that is there already keeps its index and takes the new
spelling, except among several points on one line, which keep theirs. A new point divides the segments
that it falls on. -/
def insertPoint (m : Arrangement) (p : Vec2 Float) : Arrangement × Nat :=
  let site := Site.ofVec2 p
  match m.sites.findIdx? (·.exact == site.exact) with
  | some i =>
    if 1 < m.sites.size ∧ m.isFlat then (m, i)
    else ({ m with sites := m.sites.setIfInBounds i site }, i)
  | none =>
    let n := m.sites.size
    let divide (s : Nat × Nat) : List (Nat × Nat) :=
      if ExactPoint.between (m.exact s.1) (m.exact s.2) site.exact then [(s.1, n), (n, s.2)]
      else [s]
    ({ sites := m.sites.push site, segments := m.segments.flatMap divide }, n)

/-- There is a segment between two sites. -/
def joined (m : Arrangement) (u v : Nat) : Bool :=
  m.segments.any fun s => s == (u, v) || s == (v, u)

/-- One more segment, unless it has no length or is there already. -/
def join (m : Arrangement) (u v : Nat) : Arrangement :=
  if u = v || m.joined u v then m else { m with segments := (u, v) :: m.segments }

/-- A segment led through a site: it gives way to its two parts. Led through one of its ends it stays
as it is. -/
def lead (m : Arrangement) (s : Nat × Nat) (k : Nat) : Arrangement :=
  if k = s.1 ∨ k = s.2 then m
  else
    let kept := m.segments.filter fun t => t != s && t != (s.2, s.1)
    ({ m with segments := kept }.join s.1 k).join k s.2

end Arrangement

end TriMesh.Delaunay
