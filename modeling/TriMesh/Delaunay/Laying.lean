import TriMesh.Delaunay.Crossing

/-! # Laying paths down

Closed paths become part of an arrangement. A way from one site to another runs straight, stops at
the sites in between and at the divisions of the segments that it crosses, and goes on from each stop
straight to its end. Since a division is rounded, the way may bend there. -/

namespace TriMesh.Delaunay

namespace Arrangement

/-- The sites between two others, from the first to the second. -/
def sitesBetween (m : Arrangement) (u v : Nat) : List Nat :=
  let a := m.exact u
  let b := m.exact v
  ((List.range m.sites.size).filter fun i => ExactPoint.between a b (m.exact i)).mergeSort
    fun i j => ExactPoint.dotFrom a (m.exact i) b ≤ ExactPoint.dotFrom a (m.exact j) b

/-- The way from `u` through some stops laid down; `fuel` bounds the number of its parts and of the
segments that it crosses. -/
def layThrough : Nat → Arrangement → Nat → List Nat → Arrangement
  | 0, m, _, _ => m
  | _, m, _, [] => m
  | fuel + 1, m, u, v :: rest =>
    if u = v then layThrough fuel m u rest
    else
      let stop := (m.sitesBetween u v).head?.getD v
      match m.firstCrossing? u stop with
      | none => layThrough fuel (m.join u stop) stop (v :: rest)
      | some s =>
        match m.division s u v with
        | .fresh p =>
          let (m, k) := m.insertPoint p
          layThrough fuel (m.lead s k) u (k :: v :: rest)
        | .existing k => layThrough fuel (m.lead s k) u (k :: v :: rest)

/-- The segment from `u` to `v` laid down, in parts where it meets sites or other segments. Each site
and each segment makes a few steps, so a multiple of their number is enough fuel. -/
def insertSegment (m : Arrangement) (u v : Nat) : Arrangement :=
  layThrough (8 * (m.sites.size + m.segments.length + 1)) m u [v]

/-- A closed path laid down: its points, then its edges. -/
def insertPath (m : Arrangement) (path : Path Float) : Arrangement :=
  let (m, indices) := path.foldl
    (fun (m, indices) p =>
      let (m, i) := m.insertPoint p
      (m, indices ++ [i]))
    (m, [])
  match indices with
  | [] => m
  | first :: rest =>
    (List.zip (first :: rest) (rest ++ [first])).foldl (fun m e => m.insertSegment e.1 e.2) m

/-- The arrangement of some closed paths, laid down one after the other. -/
def ofPaths (paths : List (Path Float)) : Arrangement := paths.foldl insertPath {}

end Arrangement

end TriMesh.Delaunay
