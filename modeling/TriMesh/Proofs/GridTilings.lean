import TriMesh.Proofs.Generators
import TriMesh.Proofs.PlaneFacets

/-! # Tilings of grids

The triangles over a grid of vertices, by the places of their corners and cell by cell.

* A cell between two rows is cut along the diagonal from its left corner on the row `near` to its right
  corner on the row `far`; with the rows exchanged the other diagonal is taken, and the edges around the
  cell are walked the other way (`edges_cellFacets_front`, `edges_cellFacets_back`).
* Added up over all cells, the edges around the cells are the rim of the grid, once and one way round, and
  every edge inside once each way (`sum_outlines`): those along a row cancel in it (`sum_outline_row`), and
  those between rows between these (`sum_rightward_rows`).
* No directed edge is walked twice: it is enough to see that for places that are rows and columns
  (`nodup_edges_pairs`), as different vertices of a grid have different numbers.
* The back of a grid is its front with the rows taken from the other end (`backFacets_eq`).  So it covers
  the same cells from the other side, but no triangle of it is one of the front turned over
  (`not_similar_flip`). -/

namespace TriMesh

/-- A triangle by the numbers of its corners. -/
def Triangle.facet (t : Triangle) : Facet ℕ := ⟨t.a, t.b, t.c⟩

/-! ### Lists added up -/

section sums
variable {β : Type}

/-- Lists put one behind the other add up as multisets. -/
theorem coe_flatMap_range (F : ℕ → List β) (n : ℕ) :
    (↑((List.range n).flatMap F) : Multiset β) = ∑ i ∈ Finset.range n, ↑(F i) := by
  induction n with
  | zero => rfl
  | succ n ih =>
      rw [List.range_succ, List.flatMap_append, ← Multiset.coe_add, ih, Finset.sum_range_succ,
        List.flatMap_singleton]

theorem coe_map_range (f : ℕ → β) (n : ℕ) :
    (↑((List.range n).map f) : Multiset β) = ∑ i ∈ Finset.range n, {f i} := by
  rw [List.map_eq_flatMap]
  exact coe_flatMap_range _ n

theorem Surface.edges_flatMap_range (F : ℕ → Surface β) (n : ℕ) :
    edges ((List.range n).flatMap F) = ∑ i ∈ Finset.range n, edges (F i) := by
  unfold edges
  rw [List.flatMap_assoc]
  exact coe_flatMap_range _ n

/-- The edges of a surface do not depend on the order of its facets. -/
theorem Surface.edges_of_perm {fs gs : Surface β} (h : fs.Perm gs) : edges fs = edges gs :=
  Multiset.coe_eq_coe.mpr (h.flatMap_right _)

end sums

namespace Grid

/-! ### Facets over places -/

section places
variable {β : Type} (place : ℕ → ℕ → β)

/-- The facet with two corners on the row `far` in the cell to the right of a column. -/
def onFar (far near col : ℕ) : Facet β := ⟨place far col, place near col, place far (col + 1)⟩

/-- The facet with two corners on the row `near` in the cell to the right of a column. -/
def onNear (far near col : ℕ) : Facet β :=
  ⟨place far (col + 1), place near col, place near (col + 1)⟩

/-- The two facets of the cell between the rows `far` and `near` to the right of a column. -/
def cellFacets (far near col : ℕ) : Surface β := [onFar place far near col, onNear place far near col]

/-- The front facets of a grid, lowest row first. -/
def frontFacets (width height : ℕ) : Surface β :=
  (List.range (height - 1)).flatMap fun row =>
    (List.range (width - 1)).flatMap fun col => cellFacets place (row + 1) row col

/-- The back facets of a grid, highest row first. -/
def backFacets (width height : ℕ) : Surface β :=
  (List.range (height - 1)).reverse.flatMap fun row =>
    (List.range (width - 1)).flatMap fun col => cellFacets place row (row + 1) col

/-- The cells of a grid by their lower left corners. -/
def cells (width height : ℕ) : List (ℕ × ℕ) :=
  (List.range (height - 1)).product (List.range (width - 1))

/-- The corners of a cell, counter-clockwise with columns to the right and rows upward. -/
def cellCorners (row col : ℕ) : List β :=
  [place row col, place row (col + 1), place (row + 1) (col + 1), place (row + 1) col]

/-- The edge from a vertex to the next one in its row. -/
def rightward (row col : ℕ) : β × β := (place row col, place row (col + 1))

/-- The edge from a vertex to the one above it. -/
def upward (row col : ℕ) : β × β := (place row col, place (row + 1) col)

/-- The diagonal of a cell from its lower left to its upper right corner. -/
def rising (row col : ℕ) : β × β := (place row col, place (row + 1) (col + 1))

/-- The diagonal of a cell from its upper left to its lower right corner. -/
def falling (row col : ℕ) : β × β := (place (row + 1) col, place row (col + 1))

/-- The edges around a cell, counter-clockwise. -/
def outline (row col : ℕ) : Multiset (β × β) :=
  {rightward place row col} + {upward place row (col + 1)} +
    {(rightward place (row + 1) col).swap} + {(upward place row col).swap}

/-- The edges around the grid, counter-clockwise: along the lowest row, the last column, the highest row
and the first column. -/
def rim (width height : ℕ) : List (β × β) :=
  (List.range (width - 1)).map (rightward place 0) ++
    (List.range (height - 1)).map (fun row => upward place row (width - 1)) ++
    (List.range (width - 1)).map (fun col => (rightward place (height - 1) col).swap) ++
    (List.range (height - 1)).map (fun row => (upward place row 0).swap)

/-- Some edges, and their reverses. -/
def bothWays (es : List (β × β)) : List (β × β) := es ++ es.map Prod.swap

/-- The edges between cells, rightward and upward. -/
def inner (width height : ℕ) : List (β × β) :=
  ((List.range (height - 2)).flatMap fun row =>
    (List.range (width - 1)).map fun col => rightward place (row + 1) col) ++
  (List.range (height - 1)).flatMap fun row =>
    (List.range (width - 2)).map fun col => upward place row (col + 1)

theorem edges_cellFacets_front (row col : ℕ) :
    Surface.edges (cellFacets place (row + 1) row col) =
      outline place row col + ({rising place row col} + {(rising place row col).swap}) := by
  simp only [cellFacets, onFar, onNear, Surface.edges_cons, Surface.edges_nil, Facet.edges, outline,
    rightward, upward, rising, Prod.swap, ← Multiset.cons_coe, Multiset.coe_nil, ← Multiset.singleton_add, add_zero]
  abel

theorem edges_cellFacets_back (row col : ℕ) :
    Surface.edges (cellFacets place row (row + 1) col) =
      (outline place row col).map Prod.swap +
        ({falling place row col} + {(falling place row col).swap}) := by
  simp only [cellFacets, onFar, onNear, Surface.edges_cons, Surface.edges_nil, Facet.edges, outline,
    rightward, upward, falling, Prod.swap, ← Multiset.cons_coe, Multiset.coe_nil, ← Multiset.singleton_add, add_zero,
    Multiset.map_add, Multiset.map_singleton]
  abel

/-- Along a row the right side of each cell is the left side of the next one. -/
theorem sum_outline_row (m row : ℕ) :
    ∑ col ∈ Finset.range (m + 1), outline place row col =
      ∑ col ∈ Finset.range (m + 1), {rightward place row col} +
        ∑ col ∈ Finset.range (m + 1), {(rightward place (row + 1) col).swap} +
        ({upward place row (m + 1)} + {(upward place row 0).swap}) +
        ∑ col ∈ Finset.range m,
          ({upward place row (col + 1)} + {(upward place row (col + 1)).swap}) := by
  simp only [outline, Finset.sum_add_distrib]
  rw [Finset.sum_range_succ (fun col => {upward place row (col + 1)}),
    Finset.sum_range_succ' (fun col => {(upward place row col).swap})]
  abel

/-- The upper sides of the cells of a row are the lower sides of those of the next one. -/
theorem sum_rightward_rows (m n : ℕ) :
    ∑ row ∈ Finset.range (n + 1), ∑ col ∈ Finset.range (m + 1),
        ({rightward place row col} : Multiset (β × β)) +
      ∑ row ∈ Finset.range (n + 1), ∑ col ∈ Finset.range (m + 1),
        {(rightward place (row + 1) col).swap} =
      ∑ col ∈ Finset.range (m + 1), {rightward place 0 col} +
        ∑ col ∈ Finset.range (m + 1), {(rightward place (n + 1) col).swap} +
        ∑ row ∈ Finset.range n, ∑ col ∈ Finset.range (m + 1),
          ({rightward place (row + 1) col} + {(rightward place (row + 1) col).swap}) := by
  rw [Finset.sum_range_succ', Finset.sum_range_succ (fun row => ∑ col ∈ Finset.range (m + 1),
    ({(rightward place (row + 1) col).swap} : Multiset (β × β)))]
  simp only [Finset.sum_add_distrib]
  abel

/-- The edges around all cells: those between two cells are walked once each way. -/
theorem sum_outlines (m n : ℕ) :
    ∑ row ∈ Finset.range (n + 1), ∑ col ∈ Finset.range (m + 1), outline place row col =
      ↑(rim place (m + 2) (n + 2) ++ bothWays (inner place (m + 2) (n + 2))) := by
  have hrows := sum_rightward_rows place m n
  simp only [sum_outline_row, Finset.sum_add_distrib] at hrows ⊢
  rw [hrows]
  simp only [rim, inner, bothWays, List.map_append, List.map_flatMap, List.map_map, ← Multiset.coe_add,
    coe_flatMap_range, coe_map_range, Nat.reduceSubDiff, Nat.add_sub_cancel, Function.comp_def]
  abel

/-! ### All cells -/

/-- One diagonal of every cell. -/
def diagonals (diagonal : ℕ → ℕ → β × β) (width height : ℕ) : List (β × β) :=
  (cells width height).map fun c => diagonal c.1 c.2

variable {place} in
theorem flatMap_cells {γ : Type} (F : ℕ → ℕ → List γ) (width height : ℕ) :
    ((cells width height).flatMap fun c => F c.1 c.2) =
      (List.range (height - 1)).flatMap fun row => (List.range (width - 1)).flatMap (F row) := by
  change (List.flatMap _ _).flatMap _ = _
  simp only [List.flatMap_assoc, List.flatMap_map]

theorem frontFacets_eq (width height : ℕ) :
    frontFacets place width height =
      (cells width height).flatMap fun c => cellFacets place (c.1 + 1) c.1 c.2 :=
  (flatMap_cells (fun row col => cellFacets place (row + 1) row col) width height).symm

theorem backFacets_perm (width height : ℕ) :
    (backFacets place width height).Perm
      ((cells width height).flatMap fun c => cellFacets place c.1 (c.1 + 1) c.2) := by
  rw [flatMap_cells fun row col => cellFacets place row (row + 1) col]
  exact (List.reverse_perm _).flatMap_right _

theorem edges_cells (F : ℕ → ℕ → Surface β) (m n : ℕ) :
    Surface.edges ((cells (m + 2) (n + 2)).flatMap fun c => F c.1 c.2) =
      ∑ row ∈ Finset.range (n + 1), ∑ col ∈ Finset.range (m + 1), Surface.edges (F row col) := by
  simp only [flatMap_cells, Surface.edges_flatMap_range, Nat.reduceSubDiff]

theorem coe_diagonals (diagonal : ℕ → ℕ → β × β) (m n : ℕ) :
    (↑(bothWays (diagonals diagonal (m + 2) (n + 2))) : Multiset (β × β)) =
      ∑ row ∈ Finset.range (n + 1), ∑ col ∈ Finset.range (m + 1),
        ({diagonal row col} + {(diagonal row col).swap}) := by
  have hlist (d : ℕ → ℕ → β × β) : (↑((cells (m + 2) (n + 2)).map fun c => d c.1 c.2) :
      Multiset (β × β)) = ∑ row ∈ Finset.range (n + 1), ∑ col ∈ Finset.range (m + 1), {d row col} := by
    rw [List.map_eq_flatMap, flatMap_cells fun row col => [d row col], coe_flatMap_range]
    simp only [coe_flatMap_range, Nat.reduceSubDiff, Multiset.coe_singleton]
  rw [bothWays, ← Multiset.coe_add, diagonals, List.map_map, hlist]
  simp only [Function.comp_def, hlist fun row col => (diagonal row col).swap, Finset.sum_add_distrib]

theorem map_swap_bothWays (es : List (β × β)) :
    (↑(bothWays es) : Multiset (β × β)).map Prod.swap = ↑(bothWays es) := by
  simp only [bothWays, ← Multiset.coe_add, ← Multiset.map_coe, Multiset.map_add, Multiset.map_map,
    Prod.swap_swap_eq, Multiset.map_id]
  exact add_comm _ _

/-- The front walks the rim counter-clockwise, and everything inside both ways. -/
theorem edges_frontFacets (m n : ℕ) :
    Surface.edges (frontFacets place (m + 2) (n + 2)) =
      ↑(rim place (m + 2) (n + 2) ++ bothWays (inner place (m + 2) (n + 2)) ++
        bothWays (diagonals (rising place) (m + 2) (n + 2))) := by
  rw [frontFacets_eq, edges_cells fun row col => cellFacets place (row + 1) row col,
    ← Multiset.coe_add, coe_diagonals, ← sum_outlines]
  simp only [edges_cellFacets_front, Finset.sum_add_distrib]

/-- The back walks the rim clockwise, and everything inside both ways. -/
theorem edges_backFacets (m n : ℕ) :
    Surface.edges (backFacets place (m + 2) (n + 2)) =
      ↑((rim place (m + 2) (n + 2)).map Prod.swap ++ bothWays (inner place (m + 2) (n + 2)) ++
        bothWays (diagonals (falling place) (m + 2) (n + 2))) := by
  have hswap : (↑((rim place (m + 2) (n + 2)).map Prod.swap ++
      bothWays (inner place (m + 2) (n + 2))) : Multiset (β × β)) =
        ∑ row ∈ Finset.range (n + 1), ∑ col ∈ Finset.range (m + 1),
          (outline place row col).map Prod.swap := by
    have hsum := congrArg (Multiset.mapAddMonoidHom Prod.swap) (sum_outlines place m n)
    simp only [map_sum, Multiset.coe_mapAddMonoidHom] at hsum
    rw [hsum, ← Multiset.coe_add, ← Multiset.coe_add, Multiset.map_add, map_swap_bothWays,
      Multiset.map_coe]
  rw [Surface.edges_of_perm (backFacets_perm place _ _),
    edges_cells fun row col => cellFacets place row (row + 1) col, ← Multiset.coe_add, coe_diagonals,
    hswap]
  simp only [edges_cellFacets_back, Finset.sum_add_distrib]

/-! ### The rows from the other end -/

/-- The places of a grid with its rows taken from the other end. -/
def mirrored (height : ℕ) : ℕ → ℕ → β := fun row col => place (height - 1 - row) col

theorem backFacets_eq (width height : ℕ) :
    backFacets place width height = frontFacets (mirrored place height) width height := by
  have hrows : (List.range (height - 1)).reverse =
      (List.range (height - 1)).map (height - 1 - 1 - ·) := by
    apply List.ext_getElem
    · simp
    · intro i _ _
      simp
  unfold backFacets frontFacets
  rw [hrows, List.flatMap_map]
  apply List.flatMap_congr
  intro row hrow
  rw [List.mem_range] at hrow
  have hfar : height - 1 - (row + 1) = height - 1 - 1 - row := by omega
  have hnear : height - 1 - row = height - 1 - 1 - row + 1 := by omega
  simp only [cellFacets, onFar, onNear, mirrored, hfar, hnear]

/-! ### Different places -/

/-- Different vertices of a grid have different places. -/
def Distinct (width height : ℕ) : Prop :=
  ∀ row col row' col', row < height → col < width → row' < height → col' < width →
    place row col = place row' col' → row = row' ∧ col = col'

variable {place}

theorem Distinct.mirrored {width height : ℕ} (h : Distinct place width height) :
    Distinct (Grid.mirrored place height) width height := by
  intro row col row' col' hrow hcol hrow' hcol' heq
  obtain ⟨hr, hc⟩ := h _ _ _ _ (by omega) hcol (by omega) hcol' heq
  exact ⟨by omega, hc⟩

theorem mem_cells {width height : ℕ} {c : ℕ × ℕ} :
    c ∈ cells width height ↔ c.1 + 1 < height ∧ c.2 + 1 < width := by
  obtain ⟨row, col⟩ := c
  rw [cells, List.pair_mem_product, List.mem_range, List.mem_range]
  omega

theorem nodup_cells (width height : ℕ) : (cells width height).Nodup :=
  List.nodup_range.product List.nodup_range

/-- Between rows and columns themselves every directed edge tells its cell. -/
theorem nodup_edges_pairs (width height : ℕ) :
    (Surface.edges (frontFacets Prod.mk width height)).Nodup := by
  unfold Surface.edges
  rw [frontFacets_eq, List.flatMap_assoc, Multiset.coe_nodup, List.nodup_flatMap]
  refine ⟨fun c _ => ?_, (nodup_cells _ _).pairwise_of_forall_ne fun c _ d _ hcd e hc hd => hcd ?_⟩
  · obtain ⟨row, col⟩ := c
    simp [cellFacets, onFar, onNear, Facet.edges]
  · simp only [cellFacets, onFar, onNear, Facet.edges, List.flatMap_cons, List.flatMap_nil, List.append_nil,
      List.cons_append, List.nil_append, List.mem_cons, List.not_mem_nil, or_false] at hc hd
    rcases hc with rfl | rfl | rfl | rfl | rfl | rfl <;> simp only [Prod.mk.injEq] at hd <;>
      exact Prod.ext (by omega) (by omega)

/-- The ends of the edges of a grid are vertices of it. -/
theorem mem_edges_pairs {width height : ℕ} :
    ∀ e ∈ Surface.edges (frontFacets Prod.mk width height),
      (e.1.1 < height ∧ e.1.2 < width) ∧ e.2.1 < height ∧ e.2.2 < width := by
  intro e he
  rw [frontFacets_eq] at he
  obtain ⟨f, hf, hef⟩ := List.mem_flatMap.mp (Multiset.mem_coe.mp he)
  obtain ⟨c, hc, hf⟩ := List.mem_flatMap.mp hf
  obtain ⟨hrow, hcol⟩ := mem_cells.mp hc
  simp only [cellFacets, List.mem_cons, List.not_mem_nil, or_false] at hf
  rcases hf with rfl | rfl <;>
    simp only [onFar, onNear, Facet.edges, List.mem_cons, List.not_mem_nil, or_false] at hef <;>
    rcases hef with rfl | rfl | rfl <;> dsimp only <;> omega

theorem map_frontFacets (width height : ℕ) :
    (frontFacets Prod.mk width height).map (Facet.map (Function.uncurry place)) =
      frontFacets place width height := by
  simp only [frontFacets, List.map_flatMap]
  rfl

/-- Where different vertices have different places, no directed edge is walked twice. -/
theorem Distinct.nodup_edges {width height : ℕ} (h : Distinct place width height) :
    (Surface.edges (frontFacets place width height)).Nodup := by
  rw [← map_frontFacets, Surface.edges_map]
  refine (nodup_edges_pairs width height).map_on fun e he d hd heq => ?_
  obtain ⟨⟨hr, hc⟩, hr', hc'⟩ := mem_edges_pairs e he
  obtain ⟨⟨hs, hd⟩, hs', hd'⟩ := mem_edges_pairs d hd
  obtain ⟨hfirst, hsecond⟩ := Prod.mk.inj heq
  obtain ⟨h1, h2⟩ := h _ _ _ _ hr hc hs hd hfirst
  obtain ⟨h3, h4⟩ := h _ _ _ _ hr' hc' hs' hd' hsecond
  exact Prod.ext (Prod.ext h1 h2) (Prod.ext h3 h4)

/-! ### Tilings -/

variable (place) in
/-- Two facets that cut a cell in two along a diagonal. -/
structure CutsCell (row col : ℕ) (diagonal : β × β) (f g : Facet β) : Prop where
  /-- The first has three different corners of the cell. -/
  left : f.IsProper ∧ f.corners ⊆ cellCorners place row col
  /-- The second has three different corners of the cell. -/
  right : g.IsProper ∧ g.corners ⊆ cellCorners place row col
  /-- Together they have all four. -/
  all : ∀ x ∈ cellCorners place row col, x ∈ f.corners ∨ x ∈ g.corners
  /-- They share the diagonal, which one walks one way and one the other. -/
  shared : diagonal ∈ f.edges ∧ diagonal.swap ∈ g.edges

variable (place) in
/-- Facets that cover one side of a grid, by the edges that they walk around it and the diagonals along
which they cut its cells. -/
structure Tiles (width height : ℕ) (rim : List (β × β)) (diagonal : ℕ → ℕ → β × β)
    (fs : Surface β) : Prop where
  /-- They are two facets for each cell, which cut it in two. -/
  cells : ∃ f g : ℕ → ℕ → Facet β,
    fs.Perm ((cells width height).flatMap fun c => [f c.1 c.2, g c.1 c.2]) ∧
      ∀ c ∈ Grid.cells width height,
        CutsCell place c.1 c.2 (diagonal c.1 c.2) (f c.1 c.2) (g c.1 c.2)
  /-- They walk the rim, and both ways each edge between two cells and each diagonal. -/
  edges : Surface.edges fs =
    ↑(rim ++ bothWays (inner place width height) ++ bothWays (diagonals diagonal width height))
  /-- No directed edge is walked twice. -/
  once : (Surface.edges fs).Nodup

theorem Distinct.nodup_cellCorners {width height : ℕ} (h : Distinct place width height) {c : ℕ × ℕ}
    (hc : c ∈ cells width height) : (cellCorners place c.1 c.2).Nodup := by
  obtain ⟨hrow, hcol⟩ := mem_cells.mp hc
  have hpairs : (cellCorners (fun row col => (row, col)) c.1 c.2).Nodup := by
    obtain ⟨row, col⟩ := c
    simp [cellCorners]
  have hmem : ∀ x ∈ cellCorners (fun row col => (row, col)) c.1 c.2, x.1 < height ∧ x.2 < width := by
    simp only [cellCorners, List.forall_mem_cons]
    exact ⟨by omega, by omega, by omega, by omega, by simp⟩
  have hmap : cellCorners place c.1 c.2 =
      (cellCorners (fun row col => (row, col)) c.1 c.2).map (Function.uncurry place) := rfl
  rw [hmap]
  refine hpairs.map_on fun x hx y hy heq => ?_
  obtain ⟨hr, hc⟩ := h _ _ _ _ (hmem x hx).1 (hmem x hx).2 (hmem y hy).1 (hmem y hy).2 heq
  exact Prod.ext hr hc

section cell
variable {row col : ℕ} (h : (cellCorners place row col).Nodup)
include h

theorem cutsCell_front :
    CutsCell place row col (rising place row col)
      (onFar place (row + 1) row col) (onNear place (row + 1) row col) := by
  simp only [cellCorners, List.nodup_cons, List.mem_cons, List.not_mem_nil, or_false, not_or] at h
  obtain ⟨⟨hright, hrising, hup⟩, ⟨hup', hfalling⟩, hright', -⟩ := h
  constructor
  case left =>
    exact ⟨⟨Ne.symm hup, hrising, hright'⟩, by simp [onFar, Facet.corners, cellCorners]⟩
  case right =>
    exact ⟨⟨Ne.symm hrising, hright, hup'⟩, by simp [onNear, Facet.corners, cellCorners]⟩
  case all => simp [onFar, onNear, Facet.corners, cellCorners]
  case shared => simp [onFar, onNear, Facet.edges, rising]

theorem cutsCell_back :
    CutsCell place row col (falling place row col)
      (onFar place row (row + 1) col) (onNear place row (row + 1) col) := by
  simp only [cellCorners, List.nodup_cons, List.mem_cons, List.not_mem_nil, or_false, not_or] at h
  obtain ⟨⟨hright, hrising, hup⟩, ⟨hup', hfalling⟩, hright', -⟩ := h
  constructor
  case left =>
    exact ⟨⟨hup, Ne.symm hfalling, Ne.symm hright⟩, by simp [onFar, Facet.corners, cellCorners]⟩
  case right =>
    exact ⟨⟨hfalling, Ne.symm hright', Ne.symm hup'⟩, by simp [onNear, Facet.corners, cellCorners]⟩
  case all => simp [onFar, onNear, Facet.corners, cellCorners]
  case shared => simp [onFar, onNear, Facet.edges, falling]

end cell

section tiles
variable {width height : ℕ} (h : Distinct place width height) (hw : 2 ≤ width) (hh : 2 ≤ height)
include h hw hh

theorem Distinct.tiles_front :
    Tiles place width height (rim place width height) (rising place)
      (frontFacets place width height) := by
  constructor
  case cells =>
    refine ⟨fun row => onFar place (row + 1) row, fun row => onNear place (row + 1) row,
      List.Perm.of_eq (frontFacets_eq place width height), fun c hc => ?_⟩
    exact cutsCell_front (h.nodup_cellCorners hc)
  case edges =>
    obtain ⟨m, rfl⟩ := Nat.exists_eq_add_of_le' hw
    obtain ⟨n, rfl⟩ := Nat.exists_eq_add_of_le' hh
    exact edges_frontFacets place m n
  case once => exact h.nodup_edges

theorem Distinct.tiles_back :
    Tiles place width height ((rim place width height).map Prod.swap) (falling place)
      (backFacets place width height) := by
  constructor
  case cells =>
    refine ⟨fun row => onFar place row (row + 1), fun row => onNear place row (row + 1),
      backFacets_perm place width height, fun c hc => ?_⟩
    exact cutsCell_back (h.nodup_cellCorners hc)
  case edges =>
    obtain ⟨m, rfl⟩ := Nat.exists_eq_add_of_le' hw
    obtain ⟨n, rfl⟩ := Nat.exists_eq_add_of_le' hh
    exact edges_backFacets place m n
  case once =>
    rw [backFacets_eq]
    exact h.mirrored.nodup_edges

end tiles

/-- What a front and a back walk together is walked as often each way. -/
theorem Tiles.isBalanced [DecidableEq β] {width height : ℕ} {rim : List (β × β)}
    {diagonal diagonal' : ℕ → ℕ → β × β} {front back : Surface β}
    (hfront : Tiles place width height rim diagonal front)
    (hback : Tiles place width height (rim.map Prod.swap) diagonal' back) :
    Surface.IsBalanced (front ++ back) := by
  rw [Surface.isBalanced_iff, Surface.edges_append, hfront.edges, hback.edges]
  simp only [← Multiset.coe_add, Multiset.map_add, map_swap_bothWays, ← Multiset.map_coe,
    Multiset.map_map, Prod.swap_swap_eq, Multiset.map_id]
  abel

/-- In a cell the facets of the back have the edges of the facets of the front turned over, but for the
diagonals. -/
theorem edges_cell_back (row col : ℕ) :
    Surface.edges (cellFacets place row (row + 1) col) + ↑(bothWays [rising place row col]) =
      Surface.edges ((cellFacets place (row + 1) row col).map Facet.flip) +
        ↑(bothWays [falling place row col]) := by
  have hboth (e : β × β) : (↑(bothWays [e]) : Multiset (β × β)) = {e} + {e.swap} := rfl
  rw [Surface.edges_map_flip, edges_cellFacets_back, edges_cellFacets_front, hboth, hboth,
    Multiset.map_add, Multiset.map_add, Multiset.map_singleton, Multiset.map_singleton,
    Prod.swap_swap]
  abel

end places

/-! ### Numbers of vertices -/

/-- The number of a vertex of a grid that begins at the vertex `first` of a submesh. -/
def number (first width : ℕ) : ℕ → ℕ → ℕ := fun row col => vertex width row col + first

/-- A vertex of a grid with its row taken from the other end. -/
def mirrorRow (first width height i : ℕ) : ℕ :=
  number first width (height - 1 - (i - first) / width) ((i - first) % width)

section numbers
variable (first width height : ℕ)

theorem distinct_number : Distinct (number first width) width height := by
  intro row col row' col' _ hcol _ hcol' heq
  have hvertex : row * width + col = row' * width + col' := Nat.add_right_cancel heq
  obtain ⟨hrow, hmod⟩ := row_div_mod hcol row
  obtain ⟨hrow', hmod'⟩ := row_div_mod hcol' row'
  rw [hvertex] at hrow hmod
  exact ⟨hrow.symm.trans hrow', hmod.symm.trans hmod'⟩

theorem mirrorRow_number {row col : ℕ} (hcol : col < width) :
    mirrorRow first width height (number first width row col) =
      mirrored (number first width) height row col := by
  obtain ⟨hrow, hmod⟩ := row_div_mod hcol row
  have hsub : number first width row col - first = row * width + col := Nat.add_sub_cancel _ _
  rw [mirrorRow, hsub, hrow, hmod, mirrored]

theorem map_facet_front :
    ((front width height).map (·.shift first)).map Triangle.facet =
      frontFacets (number first width) width height := by
  simp only [front, frontFacets, List.map_flatMap]
  rfl

theorem map_facet_back :
    ((back width height).map (·.shift first)).map Triangle.facet =
      backFacets (number first width) width height := by
  simp only [back, backFacets, List.map_flatMap]
  rfl

/-- The back of a grid is its front, with each row exchanged for the one at the other end. -/
theorem backFacets_number :
    backFacets (number first width) width height =
      (frontFacets (number first width) width height).map
        (Facet.map (mirrorRow first width height)) := by
  rw [backFacets_eq]
  simp only [frontFacets, List.map_flatMap]
  refine List.flatMap_congr fun row _ => List.flatMap_congr fun col hcol => ?_
  rw [List.mem_range] at hcol
  simp only [cellFacets, onFar, onNear, List.map_cons, List.map_nil, Facet.map,
    mirrorRow_number first width height (Nat.lt_of_lt_pred hcol),
    mirrorRow_number first width height (Nat.add_lt_of_lt_sub hcol)]

/-- No facet of the back is one of the front turned over: their diagonals differ. -/
theorem not_similar_flip {f g : Facet ℕ} (hf : f ∈ frontFacets (number first width) width height)
    (hg : g ∈ backFacets (number first width) width height) : ¬g.Similar f.flip := by
  rw [frontFacets_eq] at hf
  rw [(backFacets_perm _ _ _).mem_iff] at hg
  obtain ⟨c, hc, hf⟩ := List.mem_flatMap.mp hf
  obtain ⟨d, _, hg⟩ := List.mem_flatMap.mp hg
  obtain ⟨_, hcol⟩ := mem_cells.mp hc
  have hc' := Nat.add_one_mul c.1 width
  have hd' := Nat.add_one_mul d.1 width
  simp only [cellFacets, onFar, onNear, number, vertex, List.mem_cons, List.not_mem_nil, or_false]
    at hf hg
  rcases hf with rfl | rfl <;> rcases hg with rfl | rfl <;>
    simp only [Facet.Similar, Facet.rotate, Facet.flip, Facet.mk.injEq] <;> omega

end numbers
end Grid

/-! ### Grids in submeshes -/

theorem Triangle.flatten_map_shift (ts : List Triangle) (k : ℕ) :
    flatten (ts.map (·.shift k)) = (flatten ts).map (· + k) := by
  induction ts with
  | nil => rfl
  | cons t ts ih =>
      rw [List.map_cons, flatten_cons, flatten_cons, ih]
      rfl

/-- The same facets in any order, each begun with any corner. -/
def Surface.SameFacets {β : Type} (fs gs : Surface β) : Prop :=
  ∃ listed, List.Forall₂ Facet.Similar fs listed ∧ listed.Perm gs

namespace SubMesh

open Grid

/-- **A grid is covered cell by cell.**  Only indices are added, behind the others; they name vertices of
the grid, and there are none for a grid without cells.  Otherwise the front covers every cell by two
triangles that share its rising diagonal, and the back by two that share the falling one; the front walks
the rim of the grid counter-clockwise and the back clockwise, each edge once, and both walk every edge
inside once each way.  Together they walk every directed edge as often as its reverse. -/
theorem addGrid_tiles {α : Type} (s : SubMesh α) (first width height : ℕ) (faces : GridFaces) :
    ∃ ts : List Triangle,
      s.addGrid first width height faces = { s with indices := s.indices ++ Triangle.flatten ts } ∧
      (∀ i ∈ Triangle.flatten ts, first ≤ i ∧ i < first + width * height) ∧
      (width < 2 ∨ height < 2 → ts = []) ∧
      (2 ≤ width → 2 ≤ height →
        let place := number first width
        let TilesFront := Tiles place width height (rim place width height) (rising place)
        let TilesBack :=
          Tiles place width height ((rim place width height).map Prod.swap) (falling place)
        match faces with
        | .front => TilesFront (ts.map Triangle.facet)
        | .back => TilesBack (ts.map Triangle.facet)
        | .both => ∃ front back, ts.map Triangle.facet = front ++ back ∧ TilesFront front ∧
            TilesBack back ∧ Surface.IsBalanced (front ++ back)) := by
  refine ⟨(Grid.triangles faces width height).map (·.shift first), rfl, ?_, ?_, ?_⟩
  · intro i hi
    rw [Triangle.flatten_map_shift] at hi
    obtain ⟨j, hj, rfl⟩ := List.mem_map.mp hi
    have hbelow : ∀ t ∈ Grid.triangles faces width height, t.Below (height * width) :=
      Grid.below_of_mem_triangles
    have hlt := Triangle.forall_mem_flatten_lt hbelow j hj
    rw [Nat.mul_comm] at hlt
    omega
  · intro hthin
    rw [List.map_eq_nil_iff]
    have hnone : List.range (height - 1) = [] ∨ List.range (width - 1) = [] := by
      simp only [List.range_eq_nil]
      omega
    rcases hnone with h | h <;> cases faces <;> simp [Grid.triangles, front, back, h]
  · intro hw hh place TilesFront TilesBack
    have hfront := (distinct_number first width height).tiles_front hw hh
    have hback := (distinct_number first width height).tiles_back hw hh
    rw [← map_facet_front] at hfront
    rw [← map_facet_back] at hback
    cases faces with
    | front => exact hfront
    | back => exact hback
    | both =>
        refine ⟨_, _, ?_, hfront, hback, hfront.isBalanced hback⟩
        rw [Grid.triangles, List.map_append, List.map_append]

/-- A grid of two cells behind four other vertices, covered on both sides. -/
theorem addGrid_tiles_pair :
    let place := number 4 3
    2 ≤ 3 ∧ 2 ≤ 2 ∧ ∃ ts : List Triangle,
      (SubMesh.empty : SubMesh ℝ).addGrid 4 3 2 .both =
        { (SubMesh.empty : SubMesh ℝ) with indices := (#[] : Array ℕ) ++ Triangle.flatten ts } ∧
      ∃ front back, ts.map Triangle.facet = front ++ back ∧
        Tiles place 3 2 (rim place 3 2) (rising place) front ∧
        Tiles place 3 2 ((rim place 3 2).map Prod.swap) (falling place) back ∧
        Surface.IsBalanced (front ++ back) := by
  obtain ⟨ts, hts, _, _, htiles⟩ := addGrid_tiles (SubMesh.empty : SubMesh ℝ) 4 3 2 .both
  exact ⟨by decide, by decide, ts, hts, htiles (by decide) (by decide)⟩

/-- **The back of a grid is its front with the rows taken from the other end.**  So in every cell the
back walks the edges of the front turned over, but it is cut along the other diagonal, and no triangle of
the back is one of the front turned over. -/
theorem addGrid_back_mirrored {α : Type} (s : SubMesh α) (first width height : ℕ) :
    let place := number first width
    ∃ front back : List Triangle,
      s.addGrid first width height .front = s.addTriangles front ∧
      s.addGrid first width height .back = s.addTriangles back ∧
      s.addGrid first width height .both = s.addTriangles (front ++ back) ∧
      back.map Triangle.facet =
        (front.map Triangle.facet).map (Facet.map (mirrorRow first width height)) ∧
      (front.map Triangle.facet).Perm
        ((cells width height).flatMap fun c => cellFacets place (c.1 + 1) c.1 c.2) ∧
      (back.map Triangle.facet).Perm
        ((cells width height).flatMap fun c => cellFacets place c.1 (c.1 + 1) c.2) ∧
      (∀ c ∈ cells width height,
        Surface.edges (cellFacets place c.1 (c.1 + 1) c.2) + ↑(bothWays [rising place c.1 c.2]) =
          Surface.edges ((cellFacets place (c.1 + 1) c.1 c.2).map Facet.flip) +
            ↑(bothWays [falling place c.1 c.2])) ∧
      ∀ f ∈ front.map Triangle.facet, ∀ g ∈ back.map Triangle.facet, ¬g.Similar f.flip := by
  intro place
  refine ⟨(front width height).map (·.shift first), (back width height).map (·.shift first), rfl, rfl,
    ?_, ?_, ?_, ?_, fun c _ => edges_cell_back c.1 c.2, ?_⟩
  · rw [← List.map_append]
    rfl
  · rw [map_facet_back, map_facet_front, backFacets_number]
  · rw [map_facet_front, frontFacets_eq]
  · rw [map_facet_back]
    exact backFacets_perm place width height
  · rw [map_facet_front, map_facet_back]
    exact fun f hf g hg => not_similar_flip first width height hf hg

/-- The two sides of a grid of two cells, one above the other. -/
theorem addGrid_back_mirrored_tower :
    let place := number 4 2
    ∃ front back : List Triangle,
      (SubMesh.empty : SubMesh ℝ).addGrid 4 2 3 .front = SubMesh.empty.addTriangles front ∧
      (SubMesh.empty : SubMesh ℝ).addGrid 4 2 3 .back = SubMesh.empty.addTriangles back ∧
      back.map Triangle.facet = (front.map Triangle.facet).map (Facet.map (mirrorRow 4 2 3)) ∧
      (1, 0) ∈ cells 2 3 ∧
      Surface.edges (cellFacets place 1 2 0) + ↑(bothWays [rising place 1 0]) =
        Surface.edges ((cellFacets place 2 1 0).map Facet.flip) + ↑(bothWays [falling place 1 0]) ∧
      ∀ f ∈ front.map Triangle.facet, ∀ g ∈ back.map Triangle.facet, ¬g.Similar f.flip := by
  obtain ⟨front, back, hfront, hback, _, hmirror, _, _, hcell, hflip⟩ :=
    addGrid_back_mirrored (SubMesh.empty : SubMesh ℝ) 4 2 3
  have hmem : (1, 0) ∈ cells 2 3 := by decide
  exact ⟨front, back, hfront, hback, hmirror, hmem, hcell _ hmem, hflip⟩

/-- Over a single cell the back is not the front turned over. -/
theorem back_cuts_other_diagonal :
    ¬Surface.SameFacets
      (((SubMesh.empty : SubMesh ℝ).addGrid 0 2 2 .back).triangles.map Triangle.facet)
      ((((SubMesh.empty : SubMesh ℝ).addGrid 0 2 2 .front).triangles.map Triangle.facet).map
        Facet.flip) := by
  have hback : ((SubMesh.empty : SubMesh ℝ).addGrid 0 2 2 .back).triangles =
      [⟨0, 2, 1⟩, ⟨1, 2, 3⟩] := rfl
  have hfront : ((SubMesh.empty : SubMesh ℝ).addGrid 0 2 2 .front).triangles =
      [⟨2, 0, 3⟩, ⟨3, 0, 1⟩] := rfl
  rintro ⟨listed, hsimilar, hperm⟩
  rw [hback] at hsimilar
  rw [hfront] at hperm
  cases hsimilar with
  | cons hfirst _ =>
    have hmem := hperm.mem_iff.mp List.mem_cons_self
    simp only [List.map_cons, List.map_nil, Triangle.facet, Facet.flip, List.mem_cons,
      List.not_mem_nil, or_false] at hmem
    rcases hmem with rfl | rfl <;> revert hfirst <;>
      simp [Triangle.facet, Facet.Similar, Facet.rotate]

end SubMesh

end TriMesh
