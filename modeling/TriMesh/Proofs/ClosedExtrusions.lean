import TriMesh.Proofs.OutwardNormals

/-! # Closed extrusions

An extrusion over a triangulation that fills its boundary has a balanced surface: when vertices at
equal positions are one corner, every directed edge occurs as often as its reverse, for paths of either
orientation, nested paths and triangles wound either way (`Extrusion.mesh_isBalanced`).  Scalars are
exact, and the height is arbitrary.

* `Triangulation.Fills` says what is asked of the triangulation, in terms of its points, of the sides
  of its triangles and of the boundary edges.
* In the plane the clockwise triangles and the lower edges of the walls, taken as each wall walks
  them, are balanced together (`Fills.balanced_base`): a wall walks its lower edge against the one
  triangle at it, and two triangles at an inner side walk it in both directions.
* The surface consists of this plane figure at the bottom, its reverse at the top, the vertical edges
  and the diagonals of the walls.  The vertical edges are balanced because the triangles are, which
  pass through each point as often as they leave it. -/

namespace TriMesh

/-! ### Fillings -/

/-- The edge joins two points, in either direction. -/
def Edge.Joins {α : Type} (e : Edge α) (p q : Vec2 α) : Prop :=
  e.start = p ∧ e.stop = q ∨ e.start = q ∧ e.stop = p

noncomputable instance (e : Edge ℝ) (p q : Vec2 ℝ) : Decidable (e.Joins p q) :=
  inferInstanceAs (Decidable (_ ∨ _))

namespace Edge

variable {α : Type} {e : Edge α} {p q x y : Vec2 α}

theorem joins_comm : e.Joins p q ↔ e.Joins q p := or_comm

/-- Which points an edge joins is determined up to their order. -/
theorem Joins.eq_or_eq (h : e.Joins p q) (h' : e.Joins x y) :
    (x, y) = (p, q) ∨ (x, y) = (q, p) := by
  rcases h with ⟨rfl, rfl⟩ | ⟨rfl, rfl⟩ <;> rcases h' with ⟨rfl, rfl⟩ | ⟨rfl, rfl⟩
  · exact Or.inl rfl
  · exact Or.inr rfl
  · exact Or.inr rfl
  · exact Or.inl rfl

end Edge

namespace Triangulation

/-- The triangulation fills a boundary without overlap and can be matched with it. -/
structure Fills (t : Triangulation ℝ) (edges : List (Edge ℝ)) : Prop where
  /-- Different points are farther apart than the matching tolerance. -/
  spread : t.IsSpread (Tolerance.pointMatch (Extrusion.extent edges))
  /-- The ends of boundary edges are points of the triangulation. -/
  ends : ∀ e ∈ edges, e.start ∈ t.points ∧ e.stop ∈ t.points
  /-- No triangle names a missing point. -/
  inRange : ∀ i ∈ t.triangles, i.Below t.points.size
  /-- No triangle is flat. -/
  area : ∀ f ∈ t.facets, f.area ≠ 0
  /-- No two boundary edges join the same points. -/
  once : ∀ e ∈ edges, edges.countP (·.Joins e.start e.stop) = 1
  /-- Every boundary edge is a side of one triangle. -/
  boundary : ∀ e ∈ edges, t.facets.countP (·.HasSide e.start e.stop) = 1
  /-- Any other side belongs to two triangles, of which one lies to its left. -/
  inner : ∀ f ∈ t.facets, ∀ p q, f.HasSide p q → (∀ e ∈ edges, ¬e.Joins p q) →
    t.facets.countP (·.HasSide p q) = 2 ∧
      t.facets.countP (fun g => g.HasSide p q ∧ g.IsLeftOf p q) = 1

/-- The directed edges of all triangles, each turned clockwise. -/
noncomputable def sideEdges (t : Triangulation ℝ) : Multiset (Vec2 ℝ × Vec2 ℝ) :=
  Surface.edges (t.facets.map Facet.downward)

namespace Fills

variable {t : Triangulation ℝ} {edges : List (Edge ℝ)} (h : t.Fills edges)
include h

theorem count_sideEdges (p q : Vec2 ℝ) :
    t.sideEdges.count (p, q) = t.facets.countP fun f => f.HasSide p q ∧ f.IsLeftOf q p :=
  Facet.count_edges_downward h.area

/-- Each triangle with a side walks it in one of its directions. -/
theorem count_sideEdges_add (p q : Vec2 ℝ) :
    t.sideEdges.count (p, q) + t.sideEdges.count (q, p) = t.facets.countP (·.HasSide p q) := by
  -- the triangles with the side, divided by where they lie
  have hsplit := List.countP_eq_countP_filter_add t.facets (fun f => f.HasSide p q)
    fun f => f.IsLeftOf q p
  rw [List.countP_filter, List.countP_filter] at hsplit
  rw [h.count_sideEdges, h.count_sideEdges, hsplit]
  congr 1
  · apply List.countP_congr
    intro f _
    simp only [decide_eq_true_eq, Bool.and_eq_true]
  · apply List.countP_congr
    intro f hf
    simp only [decide_eq_true_eq, Bool.and_eq_true, Bool.not_eq_true', decide_eq_false_iff_not]
    rw [Facet.hasSide_comm]
    exact and_congr_right fun hs => Facet.isLeftOf_comm hs (h.area f hf)

/-- A side that is no boundary edge is walked once in each direction, or not at all. -/
theorem count_sideEdges_comm {p q : Vec2 ℝ} (hpq : ∀ e ∈ edges, ¬e.Joins p q) :
    t.sideEdges.count (p, q) = t.sideEdges.count (q, p) := by
  have hsum := h.count_sideEdges_add p q
  by_cases hside : ∃ f ∈ t.facets, f.HasSide p q
  · obtain ⟨f, hf, hs⟩ := hside
    obtain ⟨htwo, hone⟩ := h.inner f hf p q hs hpq
    have hback : t.sideEdges.count (q, p) = 1 := by
      rw [h.count_sideEdges, ← hone]
      simp only [Facet.hasSide_comm]
    omega
  · have hnone : t.facets.countP (·.HasSide p q) = 0 := by
      rw [List.countP_eq_zero]
      intro f hf hs
      exact hside ⟨f, hf, by simpa using hs⟩
    omega

/-- A boundary edge is walked once, in one direction. -/
theorem count_sideEdges_boundary {e : Edge ℝ} (he : e ∈ edges) {p q : Vec2 ℝ} (hpq : e.Joins p q) :
    t.sideEdges.count (p, q) + t.sideEdges.count (q, p) = 1 := by
  rcases hpq with ⟨rfl, rfl⟩ | ⟨rfl, rfl⟩
  · rw [h.count_sideEdges_add, h.boundary e he]
  · rw [add_comm, h.count_sideEdges_add, h.boundary e he]

theorem countP_joins {e : Edge ℝ} (he : e ∈ edges) {p q : Vec2 ℝ} (hpq : e.Joins p q) :
    edges.countP (·.Joins p q) = 1 := by
  rw [← h.once e he]
  rcases hpq with ⟨rfl, rfl⟩ | ⟨rfl, rfl⟩
  · rfl
  · simp only [Edge.joins_comm]

section base
variable {base : Edge ℝ → Vec2 ℝ × Vec2 ℝ} (hjoins : ∀ e ∈ edges, e.Joins (base e).1 (base e).2)
  (hagainst : ∀ e ∈ edges, (base e).swap ∈ t.sideEdges)
include hjoins hagainst

/-- A direction along a boundary edge is determined by the triangle that it runs against. -/
theorem base_eq_iff {e : Edge ℝ} (he : e ∈ edges) (p q : Vec2 ℝ) :
    base e = (p, q) ↔ e.Joins p q ∧ (q, p) ∈ t.sideEdges := by
  have hj := hjoins e he
  have ha := hagainst e he
  constructor
  · intro hb
    rw [hb] at hj ha
    exact ⟨hj, ha⟩
  · rintro ⟨hpq, hqp⟩
    rcases hpq.eq_or_eq hj with hb | hb
    · exact hb
    · -- the one triangle at the edge would walk it in both directions
      have hsum := h.count_sideEdges_boundary he hpq
      have hpos := Multiset.count_pos.mpr hqp
      have hswap : (base e).swap = (p, q) := congrArg Prod.swap hb
      rw [hswap, ← Multiset.count_pos] at ha
      omega

/-- Directed edges that run along the boundary against the triangles there are counted by these. -/
theorem countP_base (p q : Vec2 ℝ) :
    edges.countP (fun e => base e = (p, q)) =
      if ∃ e ∈ edges, e.Joins p q then t.sideEdges.count (q, p) else 0 := by
  by_cases hqp : (q, p) ∈ t.sideEdges
  · have hsame : edges.countP (fun e => base e = (p, q)) = edges.countP (·.Joins p q) := by
      apply List.countP_congr
      intro e he
      simp only [decide_eq_true_eq, h.base_eq_iff hjoins hagainst he, hqp, and_true]
    rw [hsame]
    split
    · rename_i hex
      obtain ⟨e, he, hpq⟩ := hex
      have hsum := h.count_sideEdges_boundary he hpq
      have hpos := Multiset.count_pos.mpr hqp
      rw [h.countP_joins he hpq]
      omega
    · rename_i hex
      rw [List.countP_eq_zero]
      exact fun e he hpq => hex ⟨e, he, by simpa using hpq⟩
  · rw [Multiset.count_eq_zero_of_notMem hqp, ite_self, List.countP_eq_zero]
    intro e he hb
    exact hqp ((h.base_eq_iff hjoins hagainst he p q).mp (by simpa using hb)).2

/-- The clockwise triangles and the edges that run against them along the boundary are balanced. -/
theorem balanced_base :
    (t.sideEdges + ↑(edges.map base)).map Prod.swap = t.sideEdges + ↑(edges.map base) := by
  have hbase (p q : Vec2 ℝ) : (↑(edges.map base) : Multiset (Vec2 ℝ × Vec2 ℝ)).count (p, q) =
      if ∃ e ∈ edges, e.Joins p q then t.sideEdges.count (q, p) else 0 := by
    rw [← h.countP_base hjoins hagainst, ← Multiset.map_coe, Multiset.count_map,
      ← Multiset.countP_eq_card_filter, Multiset.coe_countP]
    simp only [eq_comm]
  ext ⟨p, q⟩
  have hcount : ((t.sideEdges + ↑(edges.map base)).map Prod.swap).count (p, q) =
      (t.sideEdges + ↑(edges.map base)).count (q, p) :=
    Multiset.count_map_eq_count' _ _ Prod.swap_injective (q, p)
  have hex : (∃ e ∈ edges, e.Joins q p) ↔ ∃ e ∈ edges, e.Joins p q := by
    simp only [Edge.joins_comm]
  rw [hcount, Multiset.count_add, Multiset.count_add, hbase, hbase, if_congr hex rfl rfl]
  split
  · exact add_comm _ _
  · rename_i hno
    have hpq : ∀ e ∈ edges, ¬e.Joins p q := fun e he hpq => hno ⟨e, he, hpq⟩
    rw [h.count_sideEdges_comm hpq]

end base

end Fills

end Triangulation

namespace Extrusion

/-! ### Caps -/

section scalar
variable {α : Type} [Scalar α]

/-- A directed edge of the plane at a height. -/
def atHeight (z : α) (e : Vec2 α × Vec2 α) : Vec3 α × Vec3 α := (e.1.extend z, e.2.extend z)

theorem facet?_downward (t : Triangulation α) (i : Triangle) :
    (t.downward i).facet? t.points = (i.facet? t.points).map Facet.downward := by
  unfold Triangulation.downward
  rw [t.corners?_eq]
  cases hf : i.facet? t.points with
  | none => exact hf
  | some f =>
      by_cases hpos : 0 < f.area
      · have hd : f.downward = f.flip := if_pos hpos
        refine (congrArg (Triangle.facet? t.points) (if_pos hpos)).trans ?_
        rw [Triangle.facet?_flip, hf, Option.map_some, Option.map_some, hd]
      · have hd : f.downward = f := if_neg hpos
        refine (congrArg (Triangle.facet? t.points) (if_neg hpos)).trans ?_
        rw [hf, Option.map_some, hd]

section caps
variable {t : Triangulation α} (height : α) {i : Triangle} {f : Facet (Vec2 α)}

/-- The first half of the vertices is at the bottom. -/
theorem facet?_bottom (hi : i.Below t.points.size) (hf : i.facet? t.points = some f) :
    (t.downward i).facet? (capMesh t height).vertices = some (f.downward.map (·.extend 0)) := by
  have hd : (t.downward i).Below (t.points.map (·.extend (0 : α))).size := by
    rw [Array.size_map]
    exact Triangulation.below_downward hi
  simp only [capMesh]
  rw [Triangle.facet?_append_of_below hd, Triangle.facet?_map, facet?_downward, hf]
  rfl

/-- The second half of the vertices is at the top. -/
theorem facet?_top (hf : i.facet? t.points = some f) :
    ((t.downward i).flip.shift t.points.size).facet? (capMesh t height).vertices =
      some (f.downward.flip.map (·.extend height)) := by
  have hsize : t.points.size = (t.points.map (·.extend (0 : α))).size := Array.size_map.symm
  simp only [capMesh]
  rw [hsize, Triangle.facet?_append_shift, Triangle.facet?_map, Triangle.facet?_flip,
    facet?_downward, hf]
  rfl

end caps

/-- Every triangle, turned clockwise, is at the bottom, and the other way round at the top. -/
theorem facets_capMesh {t : Triangulation α} (h : ∀ i ∈ t.triangles, i.Below t.points.size)
    (height : α) :
    (capMesh t height).facets = (t.facets.map Facet.downward).flatMap fun f =>
      [f.map (·.extend 0), f.flip.map (·.extend height)] := by
  have htriangles : (capMesh t height).triangles =
      (t.triangles.map t.downward).flatMap fun i => [i, i.flip.shift t.points.size] :=
    SubMesh.triangles_of_flatten rfl
  unfold SubMesh.facets Triangulation.facets
  rw [htriangles]
  generalize t.triangles = is at h
  induction is with
  | nil => rfl
  | cons i is ih =>
      have hi := h i List.mem_cons_self
      obtain ⟨f, hf⟩ := Triangle.exists_facet? hi
      have his := ih fun j hj => h j (List.mem_cons_of_mem i hj)
      rw [List.map_cons, List.flatMap_cons, List.filterMap_append, his, List.filterMap_cons_some hf,
        List.map_cons, List.flatMap_cons, List.filterMap_cons_some (facet?_bottom height hi hf),
        List.filterMap_cons_some (facet?_top height hf), List.filterMap_nil]

theorem edges_capMesh {t : Triangulation α} (h : ∀ i ∈ t.triangles, i.Below t.points.size)
    (height : α) :
    Surface.edges (capMesh t height).facets =
      (Surface.edges (t.facets.map Facet.downward)).map (atHeight 0) +
        ((Surface.edges (t.facets.map Facet.downward)).map Prod.swap).map (atHeight height) := by
  rw [facets_capMesh h]
  generalize t.facets.map Facet.downward = fs
  have hflip : (fs.map fun f => f.flip.map (·.extend height)) =
      (fs.map Facet.flip).map (Facet.map (·.extend height)) := by
    rw [List.map_map]
    rfl
  rw [Surface.edges_pairs, hflip, Surface.edges_map, Surface.edges_map, Surface.edges_map_flip]
  rfl

/-! ### Walls -/

/-- The lower edge of a wall as the wall walks it. -/
def wallBase (e : Edge α) (normal : Vec3 α) : Vec2 α × Vec2 α :=
  if 0 < ((e.stop.extend 0 - e.start.extend 0).cross normal).z then (e.stop, e.start)
  else (e.start, e.stop)

/-- The vertical edge up from a point. -/
def rise (height : α) (p : Vec2 α) : Vec3 α × Vec3 α := (p.extend 0, p.extend height)

/-- The diagonal of a wall, from the lower corner at the start of its edge. -/
def diagonal (height : α) (e : Edge α) : Vec3 α × Vec3 α :=
  (e.start.extend 0, e.stop.extend height)

/-- A wall walks its lower edge, up, its upper edge backward and down, and its diagonal both ways. -/
theorem edges_wall (e : Edge α) (normal : Vec3 α) (height : α) :
    Surface.edges (wall e normal height).facets =
      {atHeight 0 (wallBase e normal)} + {atHeight height (wallBase e normal).swap} +
        ({rise height (wallBase e normal).2} + {(rise height (wallBase e normal).1).swap}) +
        ({diagonal height e} + {(diagonal height e).swap}) := by
  have hfacets {a b c d f g : Vec3 α} (hv : (wall e normal height).vertices = #[a, b, c, d, f, g]) :
      (wall e normal height).facets = [⟨a, b, c⟩, ⟨d, f, g⟩] := by
    have htriangles : (wall e normal height).triangles = [⟨0, 1, 2⟩, ⟨3, 4, 5⟩] := rfl
    unfold SubMesh.facets
    rw [htriangles, hv]
    rfl
  by_cases hleft : 0 < ((e.stop.extend 0 - e.start.extend 0).cross normal).z
  · rw [hfacets (if_pos hleft), wallBase, if_pos hleft]
    simp only [Surface.edges_cons, Surface.edges_nil, Facet.edges, ← Multiset.cons_coe,
      Multiset.coe_nil, ← Multiset.singleton_add, atHeight, rise, diagonal, Prod.swap]
    abel
  · rw [hfacets (if_neg hleft), wallBase, if_neg hleft]
    simp only [Surface.edges_cons, Surface.edges_nil, Facet.edges, ← Multiset.cons_coe,
      Multiset.coe_nil, ← Multiset.singleton_add, atHeight, rise, diagonal, Prod.swap]
    abel

/-! ### The solid -/

/-- The directed edges of caps and walls: the plane figure of triangles and lower edges at the bottom,
its reverse at the top, the vertical edges and the diagonals. -/
theorem edges_solid {t : Triangulation α} (h : ∀ i ∈ t.triangles, i.Below t.points.size)
    (edges : List (Edge α)) (normal : Edge α → Vec3 α) (height : α) :
    let sides := Surface.edges (t.facets.map Facet.downward)
    let bases : Multiset (Vec2 α × Vec2 α) := ↑(edges.map fun e => wallBase e (normal e))
    let diagonals : Multiset (Vec3 α × Vec3 α) := ↑(edges.map (diagonal height))
    Surface.edges ((walls edges (edges.map normal) height).foldl (· ++ ·)
        (capMesh t height)).facets =
      (sides + bases).map (atHeight 0) + ((sides + bases).map Prod.swap).map (atHeight height) +
        ((bases.map Prod.snd).map (rise height) +
          ((bases.map Prod.fst).map (rise height)).map Prod.swap) +
        (diagonals + diagonals.map Prod.swap) := by
  intro sides bases diagonals
  have hwalls : walls edges (edges.map normal) height =
      edges.map fun e => wall e (normal e) height := by
    unfold walls
    rw [List.zipWith_map_right, List.zipWith_self]
  have hcaps := (capMesh_complete h height).toIndexed
  have hcomplete := fun p hp => (walls_complete edges (edges.map normal) height p hp).toIndexed
  rw [hcaps.facets_foldl_append hcomplete, Surface.edges_append, edges_capMesh h, hwalls,
    Surface.edges_flatMap, ← Multiset.map_coe, Multiset.bind_map]
  simp only [edges_wall, Multiset.bind_add, Multiset.bind_singleton]
  simp only [bases, diagonals, ← Multiset.map_coe, Multiset.map_add, Multiset.map_map,
    Function.comp_def]
  abel

end scalar

theorem map_swap_swap {β : Type} (m : Multiset (β × β)) :
    (m.map Prod.swap).map Prod.swap = m := by
  simp [Multiset.map_map]

/-- Triangles leave each point as often as they reach it, so in a balanced figure the lower edges of the
walls do too. -/
theorem map_fst_bases {sides bases : Multiset (Vec2 ℝ × Vec2 ℝ)}
    (hbalanced : (sides + bases).map Prod.swap = sides + bases)
    (hsides : sides.map Prod.fst = sides.map Prod.snd) :
    bases.map Prod.fst = bases.map Prod.snd := by
  have hfst : (sides + bases).map Prod.snd = (sides + bases).map Prod.fst := by
    conv_rhs => rw [← hbalanced, Multiset.map_map]
    rfl
  rw [Multiset.map_add, Multiset.map_add, hsides] at hfst
  exact (add_left_cancel hfst).symm

/-- A balanced plane figure gives a balanced solid. -/
theorem map_swap_solid {sides bases : Multiset (Vec2 ℝ × Vec2 ℝ)}
    (hbalanced : (sides + bases).map Prod.swap = sides + bases)
    (hsides : sides.map Prod.fst = sides.map Prod.snd) (diagonals : Multiset (Vec3 ℝ × Vec3 ℝ))
    (height : ℝ) {solid : Multiset (Vec3 ℝ × Vec3 ℝ)}
    (hsolid : solid =
      (sides + bases).map (atHeight 0) + ((sides + bases).map Prod.swap).map (atHeight height) +
        ((bases.map Prod.snd).map (rise height) +
          ((bases.map Prod.fst).map (rise height)).map Prod.swap) +
        (diagonals + diagonals.map Prod.swap)) :
    solid.map Prod.swap = solid := by
  have hlift (z : ℝ) :
      ((sides + bases).map (atHeight z)).map Prod.swap = (sides + bases).map (atHeight z) := by
    conv_rhs => rw [← hbalanced, Multiset.map_map]
    rw [Multiset.map_map]
    rfl
  -- the walls go up at each point as often as they go down
  rw [hsolid, hbalanced, map_fst_bases hbalanced hsides]
  simp only [Multiset.map_add (Prod.swap : Vec3 ℝ × Vec3 ℝ → _), hlift, map_swap_swap]
  congr 1
  · congr 1
    exact add_comm _ _
  · exact add_comm _ _

theorem joins_wallBase (e : Edge ℝ) (normal : Vec3 ℝ) :
    e.Joins (wallBase e normal).1 (wallBase e normal).2 := by
  unfold wallBase
  split
  · exact Or.inr ⟨rfl, rfl⟩
  · exact Or.inl ⟨rfl, rfl⟩

/-- The normal of a boundary edge, zero where there is none. -/
noncomputable def normalAt (t : Triangulation ℝ) (edges : List (Edge ℝ)) (e : Edge ℝ) : Vec3 ℝ :=
  (edgeNormal t (Tolerance.pointMatch (extent edges)) e).getD 0

section fills
variable {t : Triangulation ℝ} {edges : List (Edge ℝ)} (h : t.Fills edges)
include h

/-- Every boundary edge has a normal, and its wall walks its lower edge against a triangle. -/
theorem normalAt_spec {e : Edge ℝ} (he : e ∈ edges) :
    edgeNormal t (Tolerance.pointMatch (extent edges)) e = some (normalAt t edges e) ∧
      (wallBase e (normalAt t edges e)).swap ∈ t.sideEdges := by
  obtain ⟨hstart, hstop⟩ := h.ends e he
  have hside : ∃ f ∈ t.facets, f.HasSide e.start e.stop := by
    have hpos : 0 < t.facets.countP (·.HasSide e.start e.stop) := by
      rw [h.boundary e he]
      exact Nat.one_pos
    simpa using List.countP_pos_iff.mp hpos
  obtain ⟨n, hn, f, hf, hs, hleft⟩ := exists_edgeNormal (pointMatch_extent_nonneg edges) h.spread
    h.area hstart hstop hside
  have heq : normalAt t edges e = n := by
    rw [normalAt, hn]
    rfl
  rw [heq]
  refine ⟨hn, ?_⟩
  have hwalk {p q : Vec2 ℝ} (hpq : f.HasSide p q) (hl : f.IsLeftOf q p) : (p, q) ∈ t.sideEdges := by
    rw [← Multiset.count_pos, h.count_sideEdges, List.countP_pos_iff]
    exact ⟨f, hf, by simpa using ⟨hpq, hl⟩⟩
  unfold wallBase
  split
  · rename_i hz
    exact hwalk hs (hleft.mp hz)
  · rename_i hz
    refine hwalk (Facet.hasSide_comm.mp hs) ?_
    rw [Facet.isLeftOf_comm hs (h.area f hf)]
    exact fun hl => hz (hleft.mpr hl)

theorem outwardNormals_eq_ok : outwardNormals edges t = .ok (edges.map (normalAt t edges)) := by
  have hmap : edges.filterMap (edgeNormal t (Tolerance.pointMatch (extent edges))) =
      edges.map (normalAt t edges) := by
    rw [← List.filterMap_eq_map]
    exact List.filterMap_congr fun e he => (normalAt_spec h he).1
  unfold outwardNormals
  simp only [hmap, List.length_map, if_true]

end fills

/-- **An extrusion over a triangulation that fills its boundary is closed.**  It succeeds, every
triangle is a facet, and when vertices at equal positions are one corner, every directed edge occurs as
often as its reverse. -/
theorem mesh_isBalanced {e : Extrusion ℝ} {triangulate : Triangulator ℝ} {t : Triangulation ℝ}
    (hpaths : tidy e.paths ≠ []) (htriangulate : triangulate (tidy e.paths) = .ok t)
    (h : t.Fills (boundaryEdges (tidy e.paths))) :
    ∃ s, e.mesh triangulate = .ok s ∧ 3 * s.facets.length = s.indexCount ∧ s.facets.IsBalanced := by
  have hmesh := (mesh_eq_ok_iff e triangulate _).mpr
    ⟨hpaths, t, _, htriangulate, outwardNormals_eq_ok h, h.inRange, rfl⟩
  refine ⟨_, hmesh, (mesh_complete hmesh).toIndexed.three_mul_length_facets, ?_⟩
  have hbalanced := h.balanced_base (fun d _ => joins_wallBase d (normalAt t _ d))
    fun d hd => (normalAt_spec h hd).2
  rw [Surface.isBalanced_iff]
  exact map_swap_solid hbalanced (Surface.edges_map_fst _) _ _ (edges_solid h.inRange _ _ _)

/-! ### A square -/

/-- The unit square. -/
noncomputable def square : Path ℝ := [⟨0, 0⟩, ⟨1, 0⟩, ⟨1, 1⟩, ⟨0, 1⟩]

/-- The unit square cut along a diagonal into two triangles, wound differently. -/
noncomputable def cutSquare : Triangulation ℝ :=
  ⟨#[⟨0, 0⟩, ⟨1, 0⟩, ⟨1, 1⟩, ⟨0, 1⟩], [⟨0, 1, 2⟩, ⟨0, 3, 2⟩]⟩

theorem facets_cutSquare :
    cutSquare.facets = [⟨⟨0, 0⟩, ⟨1, 0⟩, ⟨1, 1⟩⟩, ⟨⟨0, 0⟩, ⟨0, 1⟩, ⟨1, 1⟩⟩] := rfl

theorem boundaryEdges_square :
    boundaryEdges [square] =
      [⟨⟨0, 0⟩, ⟨1, 0⟩⟩, ⟨⟨1, 0⟩, ⟨1, 1⟩⟩, ⟨⟨1, 1⟩, ⟨0, 1⟩⟩, ⟨⟨0, 1⟩, ⟨0, 0⟩⟩] := rfl

theorem extent_square : extent (boundaryEdges [square]) = Real.sqrt 2 := by
  rw [boundaryEdges_square]
  simp only [extent, List.foldl, Vec2.min, Vec2.max, Scalar.real_min, Scalar.real_max]
  simp [Vec2.length, Vec2.dot_eq]
  norm_num

theorem pointMatch_square :
    Tolerance.pointMatch (extent (boundaryEdges [square])) = Real.sqrt 2 / 1000000 := by
  simp only [Tolerance.pointMatch, Tolerance.pointMatchFactor, extent_square, Scalar.real_ratio]
  norm_num
  ring

theorem pointMatch_square_lt : 2 * Tolerance.pointMatch (extent (boundaryEdges [square])) < 1 := by
  have hsqrt : Real.sqrt 2 < 2 := by
    rw [Real.sqrt_lt' two_pos]
    norm_num
  rw [pointMatch_square]
  linarith

/-- No two corners of the square are nearer than its sides are long. -/
theorem isSpread_cutSquare {d : ℝ} (h : d < 1) : cutSquare.IsSpread d := by
  intro i j hi hj hij
  refine h.trans_le (Real.one_le_sqrt.mpr ?_)
  have hi4 : i < 4 := hi
  have hj4 : j < 4 := hj
  interval_cases i <;> interval_cases j <;> first
    | exact absurd rfl hij
    | norm_num [cutSquare, Vec2.dot_eq]

/-- The only side of the cut square that is no boundary edge is the cut, between both triangles. -/
theorem inner_cutSquare :
    ∀ f ∈ cutSquare.facets, ∀ p q, f.HasSide p q →
      (∀ e ∈ boundaryEdges [square], ¬e.Joins p q) →
        cutSquare.facets.countP (·.HasSide p q) = 2 ∧
          cutSquare.facets.countP (fun g => g.HasSide p q ∧ g.IsLeftOf p q) = 1 := by
  rw [boundaryEdges_square, facets_cutSquare]
  intro f hf p q hside hinner
  simp only [List.mem_cons, List.not_mem_nil, or_false] at hf
  rcases hf with rfl | rfl
  all_goals
    simp only [Facet.HasSide, Facet.edges, List.mem_cons, List.not_mem_nil, or_false,
      Prod.mk.injEq] at hside
    rcases hside with (⟨rfl, rfl⟩ | ⟨rfl, rfl⟩ | ⟨rfl, rfl⟩) | (⟨rfl, rfl⟩ | ⟨rfl, rfl⟩ | ⟨rfl, rfl⟩)
    all_goals first
      | (refine absurd hinner ?_; simp [Edge.Joins]; done)
      | norm_num [Facet.HasSide, Facet.edges, Facet.IsLeftOf, Facet.corners, Vec2.perpDot_eq]

theorem cutSquare_fills : cutSquare.Fills (boundaryEdges [square]) := by
  have htol := pointMatch_extent_nonneg (boundaryEdges [square])
  have hspread := isSpread_cutSquare (d := Tolerance.pointMatch (extent (boundaryEdges [square])))
    (by linarith [pointMatch_square_lt])
  refine ⟨hspread, ?_, ?_, ?_, ?_, ?_, inner_cutSquare⟩
  · rw [boundaryEdges_square]
    simp [cutSquare]
  · simp [cutSquare, Triangle.Below]
  · rw [facets_cutSquare]
    simp [Facet.area, Vec2.perpDot_eq]
  · rw [boundaryEdges_square]
    simp [Edge.Joins]
  · rw [boundaryEdges_square, facets_cutSquare]
    simp [Facet.HasSide, Facet.edges]

theorem tidy_square : tidy [square] = [square] := by
  simp [tidy, Path.dropClosing, square, BEq.beq]

/-- The square can be extruded over its two triangles. -/
theorem exists_mesh_square :
    ∃ s, (⟨[square], 2⟩ : Extrusion ℝ).mesh (fun _ => .ok cutSquare) = .ok s := by
  simp only [mesh_eq_ok_iff, tidy_square]
  exact ⟨_, List.cons_ne_nil _ _, cutSquare, _, rfl, outwardNormals_eq_ok cutSquare_fills,
    cutSquare_fills.inRange, rfl⟩

/-- The square with an explicit closing point, extruded over two triangles. -/
theorem mesh_isBalanced_square :
    tidy [square ++ [⟨0, 0⟩]] ≠ [] ∧ cutSquare.Fills (boundaryEdges (tidy [square ++ [⟨0, 0⟩]])) ∧
      ∃ s, (⟨[square ++ [⟨0, 0⟩]], 2⟩ : Extrusion ℝ).mesh (fun _ => .ok cutSquare) = .ok s ∧
        3 * s.facets.length = s.indexCount ∧ s.facets.IsBalanced := by
  have htidy : tidy [square ++ [⟨0, 0⟩]] = [square] := by
    have hclosing : ((⟨0, 0⟩ : Vec2 ℝ) == ⟨0, 0⟩) = true := by
      simp [BEq.beq]
    simp [tidy, Path.dropClosing, square, hclosing]
  have hne : tidy [square ++ [⟨0, 0⟩]] ≠ [] := by
    rw [htidy]
    exact List.cons_ne_nil _ _
  have hfills : cutSquare.Fills (boundaryEdges (tidy [square ++ [⟨0, 0⟩]])) := by
    rw [htidy]
    exact cutSquare_fills
  exact ⟨hne, hfills, mesh_isBalanced hne rfl hfills⟩

end Extrusion

end TriMesh
