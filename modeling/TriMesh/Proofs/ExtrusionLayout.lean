import TriMesh.Proofs.ExtrusionParts

/-! # Layout of an extrusion

Where the buffers of an extruded solid have what.

* A submesh with others behind it keeps its entries, and pieces with buffers of equal size follow one
  another in blocks (`getElem?_foldl_append_left`, `getElem?_foldl_append_right`).
* The points come first at the bottom and then at the top; six vertices follow for each boundary edge,
  in the order of the edges, and each six have the normal of their own edge (`HasLayout`).
* Caps with a wall for each edge behind them are laid out so (`hasLayout_solid`).

Nothing is asked of the scalars. -/

namespace TriMesh

/-! ### Blocks of equal length -/

section lists
variable {β γ : Type}

/-- An entry of a list of blocks of equal length. -/
theorem getElem?_flatMap {f : β → List γ} {width : Nat} {k j : Nat} (hj : j < width) :
    ∀ {l : List β}, (∀ x ∈ l, (f x).length = width) →
      (l.flatMap f)[width * k + j]? = l[k]?.bind fun x => (f x)[j]?
  | [], _ => by simp
  | x :: l, h => by
      obtain ⟨hx, hl⟩ := List.forall_mem_cons.mp h
      rw [List.flatMap_cons]
      cases k with
      | zero =>
          rw [List.getElem?_append_left (by omega)]
          simp
      | succ k =>
          have hskip : width * (k + 1) + j - (f x).length = width * k + j := by
            rw [hx, Nat.mul_succ]
            omega
          rw [List.getElem?_append_right (by rw [hx, Nat.mul_succ]; omega), hskip,
            getElem?_flatMap hj hl]
          rfl

end lists

namespace SubMesh

variable {α : Type}

section buffer
variable {β : Type} (buffer : SubMesh α → Array β)
  (h : ∀ s t, buffer (s ++ t) = buffer s ++ buffer t)
include h

/-- A buffer of submeshes that are put one behind the other. -/
theorem toList_foldl_append (pieces : List (SubMesh α)) :
    ∀ s, (buffer (pieces.foldl (· ++ ·) s)).toList =
      (buffer s).toList ++ pieces.flatMap fun p => (buffer p).toList := by
  induction pieces with
  | nil => simp
  | cons p pieces ih =>
      intro s
      rw [List.foldl_cons, ih, h, Array.toList_append, List.flatMap_cons, List.append_assoc]

theorem getElem?_foldl_append_left {pieces : List (SubMesh α)} {s : SubMesh α} {i : Nat}
    (hi : i < (buffer s).size) : (buffer (pieces.foldl (· ++ ·) s))[i]? = (buffer s)[i]? := by
  rw [← Array.getElem?_toList, ← Array.getElem?_toList, toList_foldl_append buffer h,
    List.getElem?_append_left (by simpa using hi)]

variable {width : Nat} {pieces : List (SubMesh α)} (hwidth : ∀ p ∈ pieces, (buffer p).size = width)
  (s : SubMesh α)
include hwidth

theorem size_foldl_append :
    (buffer (pieces.foldl (· ++ ·) s)).size = (buffer s).size + width * pieces.length := by
  have hblocks : (pieces.flatMap fun p => (buffer p).toList).length = width * pieces.length :=
    length_flatMap_of_length fun p hp => Array.length_toList.trans (hwidth p hp)
  rw [← Array.length_toList, toList_foldl_append buffer h, List.length_append, hblocks,
    Array.length_toList]

/-- An entry of the `k`-th of pieces with buffers of equal size. -/
theorem getElem?_foldl_append_right {k j : Nat} (hj : j < width) {p : SubMesh α}
    (hp : pieces[k]? = some p) :
    (buffer (pieces.foldl (· ++ ·) s))[(buffer s).size + (width * k + j)]? = (buffer p)[j]? := by
  have hblock := getElem?_flatMap (f := fun p => (buffer p).toList) (k := k) hj fun p hp =>
    Array.length_toList.trans (hwidth p hp)
  rw [← Array.getElem?_toList, toList_foldl_append buffer h,
    List.getElem?_append_right (by simp), Array.length_toList, Nat.add_sub_cancel_left, hblock, hp,
    Option.bind_some, Array.getElem?_toList]

end buffer

/-- Pieces that name each of their vertices once and in order do so behind a submesh, too. -/
theorem indices_foldl_append {width : Nat} {pieces : List (SubMesh α)}
    (h : ∀ p ∈ pieces, p.vertexCount = width ∧ p.indices.toList = List.range width) :
    ∀ s : SubMesh α, (pieces.foldl (· ++ ·) s).indices.toList =
      s.indices.toList ++ List.range' s.vertexCount (width * pieces.length) := by
  induction pieces with
  | nil => simp
  | cons p pieces ih =>
      intro s
      obtain ⟨⟨hcount, hindices⟩, hrest⟩ := List.forall_mem_cons.mp h
      have hpiece : (s ++ p).indices.toList = s.indices.toList ++ List.range' s.vertexCount width := by
        have hshift : (List.range width).map (· + s.vertexCount) = List.range' s.vertexCount width := by
          rw [List.range'_eq_map_range]
          exact List.map_congr_left fun i _ => Nat.add_comm i s.vertexCount
        rw [indices_append, Array.toList_append, Array.toList_map, hindices, hshift]
      have hlength : width * (p :: pieces).length = width + width * pieces.length := by
        rw [List.length_cons, Nat.mul_succ, Nat.add_comm]
      rw [List.foldl_cons, ih hrest, hpiece, vertexCount_append, hcount, hlength, List.append_assoc,
        List.range'_append_1]

end SubMesh

namespace Extrusion

variable {α : Type} [Scalar α]

/-! ### Boundaries -/

/-- The edges of all paths that are left. -/
def boundary (e : Extrusion α) : List (Edge α) := boundaryEdges (tidy e.paths)

/-- The normal of an edge on its own, at the tolerance of the whole boundary. -/
def normal? (e : Extrusion α) (t : Triangulation α) (d : Edge α) : Option (Vec3 α) :=
  edgeNormal t (Tolerance.pointMatch (extent e.boundary)) d

/-! ### Layout -/

/-- The four points above and at the ends of an edge. -/
def wallCorners (d : Edge α) (height : α) : List (Vec3 α) :=
  [d.start.extend 0, d.stop.extend 0, d.start.extend height, d.stop.extend height]

/-- Where the vertices and the walls of an extruded solid are, and with which normals. -/
structure HasLayout (e : Extrusion α) (t : Triangulation α) (s : SubMesh α) : Prop where
  /-- Every point twice, and six vertices for each wall. -/
  vertexCount : s.vertexCount = 2 * t.points.size + 6 * e.boundary.length
  /-- One normal for each vertex. -/
  normalCount : s.normalCount = s.vertexCount
  /-- The points come first, at the bottom. -/
  bottom : ∀ (i : Nat) (p : Vec2 α), t.points[i]? = some p →
    s.vertices[i]? = some (p.extend 0) ∧ s.normals[i]? = some Vec3.negUnitZ
  /-- The points come again, at the top. -/
  top : ∀ (i : Nat) (p : Vec2 α), t.points[i]? = some p →
    s.vertices[t.points.size + i]? = some (p.extend e.height) ∧
      s.normals[t.points.size + i]? = some Vec3.unitZ
  /-- Six vertices follow for each edge, above and at its ends and with its own normal. -/
  wall : ∀ (k : Nat) (d : Edge α), e.boundary[k]? = some d → ∀ j < 6,
    (∃ v ∈ wallCorners d e.height, s.vertices[2 * t.points.size + (6 * k + j)]? = some v) ∧
      ∃ n, e.normal? t d = some n ∧ s.normals[2 * t.points.size + (6 * k + j)]? = some n
  /-- Two triangles for each of the triangulation, and two for each wall. -/
  indexCount : s.indexCount = 6 * t.triangles.length + 6 * e.boundary.length
  /-- A wall names its own six vertices in order. -/
  wallIndices : ∀ k < e.boundary.length, ∀ j < 6,
    s.indices[6 * t.triangles.length + (6 * k + j)]? = some (2 * t.points.size + (6 * k + j))

theorem wall_spec (d : Edge α) (n : Vec3 α) (height : α) :
    (wall d n height).vertexCount = 6 ∧ (∀ v ∈ (wall d n height).vertices, v ∈ wallCorners d height) ∧
      (wall d n height).normals = Array.replicate 6 n ∧
      (wall d n height).indices.toList = List.range 6 := by
  refine ⟨?_, ?_, rfl, rfl⟩
  · simp only [wall, SubMesh.vertexCount]
    split <;> rfl
  · simp only [wall, wallCorners]
    split <;> simp

theorem length_walls {edges : List (Edge α)} {normals : List (Vec3 α)} {f : Edge α → Option (Vec3 α)}
    (h : edges.map f = normals.map some) (height : α) :
    (walls edges normals height).length = edges.length := by
  have hlength := congrArg List.length h
  rw [List.length_map, List.length_map] at hlength
  rw [walls, List.length_zipWith, ← hlength, Nat.min_self]

/-- Over the `k`-th edge stands a wall with the normal of that edge. -/
theorem getElem?_walls {edges : List (Edge α)} {normals : List (Vec3 α)}
    {f : Edge α → Option (Vec3 α)} (h : edges.map f = normals.map some) (height : α) {k : Nat}
    {d : Edge α} (hd : edges[k]? = some d) :
    ∃ n, f d = some n ∧ (walls edges normals height)[k]? = some (wall d n height) := by
  have hk : (edges.map f)[k]? = some (f d) := by
    rw [List.getElem?_map, hd]
    rfl
  rw [h, List.getElem?_map, Option.map_eq_some_iff] at hk
  obtain ⟨n, hn, hfd⟩ := hk
  refine ⟨n, hfd.symm, ?_⟩
  rw [walls, List.getElem?_zipWith, hd, hn]

theorem forall_mem_walls {edges : List (Edge α)} {normals : List (Vec3 α)} {height : α}
    {P : SubMesh α → Prop} (h : ∀ d n, P (wall d n height)) :
    ∀ p ∈ walls edges normals height, P p := by
  intro p hp
  obtain ⟨k, hk, rfl⟩ := List.mem_iff_getElem.mp hp
  simp only [walls, List.getElem_zipWith]
  exact h _ _

theorem normalCount_capMesh (t : Triangulation α) (height : α) :
    (capMesh t height).normalCount = t.points.size + t.points.size := by
  simp [capMesh, SubMesh.normalCount]

theorem indexCount_capMesh (t : Triangulation α) (height : α) :
    (capMesh t height).indexCount = 6 * t.triangles.length := by
  have hpairs (l : List Triangle) :
      (l.flatMap fun i => [i, i.flip.shift t.points.size]).length = 2 * l.length :=
    length_flatMap_of_length fun _ _ => rfl
  simp only [capMesh, SubMesh.indexCount, List.size_toArray, Triangle.length_flatten, hpairs,
    List.length_map]
  omega

section caps
variable {t : Triangulation α} {i : Nat} {p : Vec2 α} (hp : t.points[i]? = some p) (height : α)
include hp

/-- The points come first, at the bottom. -/
theorem getElem?_capMesh_bottom :
    (capMesh t height).vertices[i]? = some (p.extend 0) ∧
      (capMesh t height).normals[i]? = some Vec3.negUnitZ := by
  obtain ⟨hi, _⟩ := Array.getElem?_eq_some_iff.mp hp
  simp only [capMesh]
  constructor
  · rw [Array.getElem?_append_left (by simpa using hi), Array.getElem?_map, hp]
    rfl
  · rw [Array.getElem?_append_left (by simpa using hi), Array.getElem?_replicate, if_pos hi]

/-- The points come again, at the top. -/
theorem getElem?_capMesh_top :
    (capMesh t height).vertices[t.points.size + i]? = some (p.extend height) ∧
      (capMesh t height).normals[t.points.size + i]? = some Vec3.unitZ := by
  obtain ⟨hi, _⟩ := Array.getElem?_eq_some_iff.mp hp
  simp only [capMesh]
  constructor
  · rw [Array.getElem?_append_right (by simp), Array.size_map, Nat.add_sub_cancel_left,
      Array.getElem?_map, hp]
    rfl
  · rw [Array.getElem?_append_right (by simp), Array.size_replicate, Nat.add_sub_cancel_left,
      Array.getElem?_replicate, if_pos hi]

end caps

section solid
variable (e : Extrusion α) (t : Triangulation α) (normals : List (Vec3 α))

/-- The caps with the walls behind them. -/
def solid : SubMesh α := (walls e.boundary normals e.height).foldl (· ++ ·) (capMesh t e.height)

/-- The caps keep their vertices and normals. -/
theorem getElem?_solid_cap {i : Nat} (hi : i < 2 * t.points.size) :
    (solid e t normals).vertices[i]? = (capMesh t e.height).vertices[i]? ∧
      (solid e t normals).normals[i]? = (capMesh t e.height).normals[i]? := by
  have hvertices := vertexCount_capMesh t e.height
  have hnormals := normalCount_capMesh t e.height
  rw [SubMesh.vertexCount] at hvertices
  rw [SubMesh.normalCount] at hnormals
  constructor
  · exact SubMesh.getElem?_foldl_append_left SubMesh.vertices (fun _ _ => rfl) (by omega)
  · exact SubMesh.getElem?_foldl_append_left SubMesh.normals (fun _ _ => rfl) (by omega)

variable {e t normals} (h : e.boundary.map (e.normal? t) = normals.map some)
include h

/-- Each buffer of the solid is that of the caps and six entries for each wall. -/
theorem size_solid {β : Type} (buffer : SubMesh α → Array β)
    (hbuffer : ∀ s u, buffer (s ++ u) = buffer s ++ buffer u)
    (hwall : ∀ d n, (buffer (wall d n e.height)).size = 6) :
    (buffer (solid e t normals)).size =
      (buffer (capMesh t e.height)).size + 6 * e.boundary.length := by
  rw [solid, SubMesh.size_foldl_append buffer hbuffer (forall_mem_walls hwall), length_walls h]

/-- The `k`-th wall keeps its vertices and normals. -/
theorem getElem?_solid_wall {k : Nat} {d : Edge α} (hd : e.boundary[k]? = some d) {j : Nat}
    (hj : j < 6) : ∃ n, e.normal? t d = some n ∧
      (solid e t normals).vertices[2 * t.points.size + (6 * k + j)]? =
        (wall d n e.height).vertices[j]? ∧
      (solid e t normals).normals[2 * t.points.size + (6 * k + j)]? = some n := by
  obtain ⟨n, hn, hwall⟩ := getElem?_walls h e.height hd
  have hvertices := SubMesh.getElem?_foldl_append_right SubMesh.vertices
    (fun _ _ => rfl) (forall_mem_walls fun d n => (wall_spec d n e.height).1)
    (capMesh t e.height) hj hwall
  have hnormals := SubMesh.getElem?_foldl_append_right SubMesh.normals
    (fun _ _ => rfl) (forall_mem_walls fun d n => Array.size_replicate)
    (capMesh t e.height) hj hwall
  have hcapVertices : (capMesh t e.height).vertices.size = 2 * t.points.size :=
    (vertexCount_capMesh t e.height).trans (Nat.two_mul _).symm
  have hcapNormals : (capMesh t e.height).normals.size = 2 * t.points.size :=
    (normalCount_capMesh t e.height).trans (Nat.two_mul _).symm
  rw [hcapVertices] at hvertices
  rw [hcapNormals, (wall_spec d n e.height).2.2.1, Array.getElem?_replicate, if_pos hj] at hnormals
  exact ⟨n, hn, hvertices, hnormals⟩

/-- Behind the indices of the caps, each vertex of a wall is named once and in order. -/
theorem indices_solid :
    (solid e t normals).indices.toList =
      (capMesh t e.height).indices.toList ++
        List.range' (2 * t.points.size) (6 * e.boundary.length) := by
  rw [solid, SubMesh.indices_foldl_append (forall_mem_walls fun d n =>
    ⟨(wall_spec d n e.height).1, (wall_spec d n e.height).2.2.2⟩), length_walls h,
    vertexCount_capMesh, Nat.two_mul]

/-- Caps with walls behind them are laid out. -/
theorem hasLayout_solid : e.HasLayout t (solid e t normals) := by
  have hcapVertices := vertexCount_capMesh t e.height
  have hcapNormals := normalCount_capMesh t e.height
  have hcapIndices := indexCount_capMesh t e.height
  rw [SubMesh.vertexCount] at hcapVertices
  rw [SubMesh.normalCount] at hcapNormals
  rw [SubMesh.indexCount] at hcapIndices
  have hvertices := size_solid h SubMesh.vertices (fun _ _ => rfl)
    fun d n => (wall_spec d n e.height).1
  have hnormals := size_solid h SubMesh.normals (fun _ _ => rfl) fun d n => Array.size_replicate
  have hindices := congrArg List.length (indices_solid h)
  rw [List.length_append, Array.length_toList, Array.length_toList, List.length_range'] at hindices
  constructor
  case vertexCount =>
    rw [SubMesh.vertexCount]
    omega
  case normalCount =>
    rw [SubMesh.normalCount, SubMesh.vertexCount]
    omega
  case bottom =>
    intro i p hp
    obtain ⟨hi, _⟩ := Array.getElem?_eq_some_iff.mp hp
    obtain ⟨hv, hn⟩ := getElem?_solid_cap e t normals (i := i) (by omega)
    rw [hv, hn]
    exact getElem?_capMesh_bottom hp e.height
  case top =>
    intro i p hp
    obtain ⟨hi, _⟩ := Array.getElem?_eq_some_iff.mp hp
    obtain ⟨hv, hn⟩ := getElem?_solid_cap e t normals (i := t.points.size + i) (by omega)
    rw [hv, hn]
    exact getElem?_capMesh_top hp e.height
  case wall =>
    intro k d hd j hj
    obtain ⟨n, hn, hvertex, hnormal⟩ := getElem?_solid_wall h hd hj
    obtain ⟨hcount, hcorners, _⟩ := wall_spec d n e.height
    have hj' : j < (wall d n e.height).vertices.size := Nat.lt_of_lt_of_eq hj hcount.symm
    rw [Array.getElem?_eq_getElem hj'] at hvertex
    exact ⟨⟨_, hcorners _ (Array.getElem_mem hj'), hvertex⟩, n, hn, hnormal⟩
  case indexCount =>
    rw [SubMesh.indexCount]
    omega
  case wallIndices =>
    intro k hk j hj
    have hskip : 6 * t.triangles.length + (6 * k + j) -
        (capMesh t e.height).indices.toList.length = 6 * k + j := by
      rw [Array.length_toList]
      omega
    rw [← Array.getElem?_toList, indices_solid h,
      List.getElem?_append_right (by rw [Array.length_toList]; omega), hskip,
      List.getElem?_range' (by omega), Nat.one_mul]

end solid

end Extrusion

end TriMesh
