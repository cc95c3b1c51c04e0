/-! # Resolution

How finely a swept solid is divided: rings along its axis and segments around it. Requests below the
coarsest solid are raised to it without complaint. -/

namespace TriMesh

/-- The least number of segments around an axis. -/
def minSegments : Nat := 3

/-- The least number of rings along an axis. -/
def minRings : Nat := 1

/-- A number of segments raised to the least one. -/
def clampSegments (segments : Nat) : Nat := max segments minSegments

/-- A number of rings raised to the least one. -/
def clampRings (rings : Nat) : Nat := max rings minRings

theorem three_le_clampSegments (n : Nat) : 3 ≤ clampSegments n := Nat.le_max_right n 3

theorem one_le_clampRings (n : Nat) : 1 ≤ clampRings n := Nat.le_max_right n 1

end TriMesh
