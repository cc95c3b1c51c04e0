/-! # Ranges of code points

A set of characters given as a table of inclusive ranges of code points. -/

namespace TriMesh.Text

/-- Inclusive ranges of code points. -/
abbrev CodeRanges := List (Nat × Nat)

/-- The character is in one of the ranges. -/
def CodeRanges.contains (ranges : CodeRanges) (c : Char) : Bool :=
  ranges.any fun r => r.1 ≤ c.toNat && c.toNat ≤ r.2

theorem CodeRanges.contains_iff {ranges : CodeRanges} {c : Char} :
    ranges.contains c = true ↔ ∃ r ∈ ranges, r.1 ≤ c.toNat ∧ c.toNat ≤ r.2 := by
  simp [CodeRanges.contains]

end TriMesh.Text
