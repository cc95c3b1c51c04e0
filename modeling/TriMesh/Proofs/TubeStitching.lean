import TriMesh.Proofs.LatticeTilings

/-! # The stitching of a cut tube

How the edges of the parts of a cut tube meet, by the nodes of its walls.

* All corners lie on the two walls, so that a ring and a column of a wall name each of them.  The walls and
  the end rings have the winding of lattices, an end ring as one band from the inner to the outer wall; the
  inner wall, the upper end and the cut face where the sweep begins are turned over (`stitching`).
* Every edge inside of a part, along the end of a wall or from one wall to the other is walked both ways.  Left
  are four loops: up a wall in steps where it ends at a cut, and down in the long edge of the cut face
  (`edges_stitching`).
* In one band a loop is an edge with its reverse, so the surface is closed; in more bands no edge of the loops
  has its reverse among them, and no other edge keeps to their lines (`count_ne_count_swap_iff`). -/

namespace TriMesh

open Grid

/-! ### Edges walked both ways -/

namespace Surface

variable {β γ : Type} [DecidableEq β] [DecidableEq γ]

/-- Edges walked both ways are walked as often as their reverses. -/
theorem count_bothWays (es : List (β × β)) (e : β × β) :
    (↑(bothWays es) : Multiset (β × β)).count e.swap = (↑(bothWays es) : Multiset (β × β)).count e := by
  rw [← count_map_swap, map_swap_bothWays]

/-- Edges that are walked both ways do not matter for how much more often an edge is walked than its
reverse. -/
theorem count_eq_count_swap_iff {fs : Surface β} {es ins : List (β × β)}
    (hedges : edges fs = ↑(es ++ bothWays ins)) (e : β × β) :
    (edges fs).count e = (edges fs).count e.swap ↔
      (↑es : Multiset (β × β)).count e = (↑es : Multiset (β × β)).count e.swap := by
  rw [hedges, ← Multiset.coe_add, Multiset.count_add, Multiset.count_add, count_bothWays, Nat.add_right_cancel_iff]

omit [DecidableEq β] [DecidableEq γ] in
theorem map_map_flip (g : β → γ) (fs : Surface β) :
    (fs.map Facet.flip).map (Facet.map g) = (fs.map (Facet.map g)).map Facet.flip := by
  rw [List.map_map, List.map_map]
  rfl

/-- A map that keeps corners apart keeps how often an edge occurs. -/
theorem count_edges_map {fs : Surface β} {g : β → γ} {S : Set β}
    (hS : ∀ e ∈ edges fs, e.1 ∈ S ∧ e.2 ∈ S) (hg : Set.InjOn g S) {e : β × β} (he : e.1 ∈ S ∧ e.2 ∈ S) :
    (edges (fs.map (Facet.map g))).count (Prod.map g g e) = (edges fs).count e := by
  rw [edges_map, Multiset.count_map, Multiset.count_eq_card_filter_eq]
  congr 1
  refine Multiset.filter_congr fun d hd => ?_
  obtain ⟨h1, h2⟩ := hS d hd
  rw [Prod.ext_iff, Prod.ext_iff]
  exact and_congr (hg.eq_iff he.1 h1) (hg.eq_iff he.2 h2)

end Surface

theorem map_swap_map_swap {β : Type} (es : List (β × β)) : (es.map Prod.swap).map Prod.swap = es := by
  rw [List.map_map, Prod.swap_swap_eq, List.map_id]

namespace Tube

/-- A vertex of the walls of a tube, which all parts of its surface share. -/
structure WallNode where
  /-- The vertex is on the outer wall. -/
  outer : Bool
  /-- The ring, from the bottom. -/
  ring : ℕ
  /-- The column. -/
  col : ℕ
deriving DecidableEq

section stitching
variable (rings segments : ℕ)

/-! ### Parts -/

/-- A wall, with the winding of a lattice. -/
def wallFacets (outer : Bool) : Surface WallNode := Lattice.facetsOver (WallNode.mk outer) rings segments

/-- The node of an end ring, which has the inner wall as row 0 and the outer wall as row 1. -/
def endNode (ring row : ℕ) : ℕ → WallNode := WallNode.mk (row != 0) ring

/-- The flat ring between the walls, facing down. -/
def endFacets (ring : ℕ) : Surface WallNode := Lattice.facetsOver (endNode ring) 1 segments

/-- The quad across both walls at a column, facing along the sweep. -/
def cutFacets (col : ℕ) : Surface WallNode :=
  Quad.facets ⟨⟨true, 0, col⟩, ⟨true, rings, col⟩, ⟨false, rings, col⟩, ⟨false, 0, col⟩⟩

/-- The surface of a cut tube. -/
def stitching : Surface WallNode :=
  wallFacets rings segments true ++ (wallFacets rings segments false).map Facet.flip ++
    (endFacets segments rings).map Facet.flip ++ endFacets segments 0 ++
    ((cutFacets rings 0).map Facet.flip ++ cutFacets rings segments)

/-! ### Edges -/

/-- The edges along a ring of a wall, with rising columns. -/
def around (outer : Bool) (ring : ℕ) : List (WallNode × WallNode) :=
  (List.range segments).map (rightward (WallNode.mk outer) ring)

/-- The edges along a column of a wall, upward. -/
def along (outer : Bool) (col : ℕ) : List (WallNode × WallNode) :=
  (List.range rings).map fun ring => upward (WallNode.mk outer) ring col

/-- The edge from the inner to the outer wall. -/
def through (ring col : ℕ) : WallNode × WallNode := (⟨false, ring, col⟩, ⟨true, ring, col⟩)

/-- A line of a wall in one edge, downward. -/
def plumb (outer : Bool) (col : ℕ) : WallNode × WallNode := (⟨outer, rings, col⟩, ⟨outer, 0, col⟩)

/-- The diagonal of the quad at a column. -/
def slant (col : ℕ) : WallNode × WallNode := (⟨true, 0, col⟩, ⟨false, rings, col⟩)

/-- The edges inside of a grid with falling diagonals. -/
def insides (place : ℕ → ℕ → WallNode) (rows : ℕ) : List (WallNode × WallNode) :=
  Grid.inner place (segments + 1) (rows + 1) ++ diagonals (falling place) (segments + 1) (rows + 1)

variable {rings segments} (hrings : 1 ≤ rings) (hsegments : 1 ≤ segments)

include hrings hsegments in
theorem edges_wallFacets (outer : Bool) :
    Surface.edges (wallFacets rings segments outer) =
      ↑((around segments outer 0).map Prod.swap ++ (along rings outer segments).map Prod.swap ++
        around segments outer rings ++ along rings outer 0 ++
        bothWays (insides segments (WallNode.mk outer) rings)) := by
  unfold wallFacets insides
  rw [Lattice.edges_facetsOver _ hrings hsegments, Lattice.map_swap_rim]
  rfl

include hsegments in
theorem edges_endFacets (ring : ℕ) :
    Surface.edges (endFacets segments ring) =
      ↑((around segments false ring).map Prod.swap ++ [(through ring segments).swap] ++
        around segments true ring ++ [through ring 0] ++ bothWays (insides segments (endNode ring) 1)) := by
  unfold endFacets insides
  rw [Lattice.edges_facetsOver _ le_rfl hsegments, Lattice.map_swap_rim]
  rfl

theorem edges_cutFacets (rings col : ℕ) :
    Surface.edges (cutFacets rings col) =
      ↑([(plumb rings true col).swap] ++ [(through rings col).swap] ++ [plumb rings false col] ++
        [through 0 col] ++ bothWays [slant rings col]) := by
  simp only [cutFacets, Quad.facets, Surface.edges_cons, Surface.edges_nil, Facet.edges, plumb, through, slant,
    bothWays, Prod.swap_prod_mk, List.map_cons, List.map_nil, List.cons_append, List.nil_append, ← Multiset.cons_coe,
    Multiset.coe_nil, ← Multiset.singleton_add, add_zero]
  abel

/-- The loop at a vertical line: up in steps along the wall, down in one edge. -/
def loop (rings : ℕ) (outer : Bool) (col : ℕ) : List (WallNode × WallNode) :=
  along rings outer col ++ [plumb rings outer col]

/-- The edges of the cut tube that stay on one of the four vertical lines. -/
def loops (rings segments : ℕ) : List (WallNode × WallNode) :=
  loop rings true 0 ++ loop rings false segments ++
    (loop rings true segments ++ loop rings false 0).map Prod.swap

/-- The edges of the cut tube inside its parts and between two of them. -/
def joints (rings segments : ℕ) : List (WallNode × WallNode) :=
  insides segments (WallNode.mk true) rings ++ insides segments (WallNode.mk false) rings ++
    insides segments (endNode rings) 1 ++ insides segments (endNode 0) 1 ++
    (around segments true 0 ++ around segments true rings ++ around segments false 0 ++
      around segments false rings) ++
    [through 0 0, through rings 0, through 0 segments, through rings segments,
      slant rings 0, slant rings segments]

include hrings hsegments in
theorem edges_stitching :
    Surface.edges (stitching rings segments) = ↑(loops rings segments ++ bothWays (joints rings segments)) := by
  unfold stitching
  simp only [Surface.edges_append, Surface.edges_map_flip, edges_wallFacets hrings hsegments,
    edges_endFacets hsegments, edges_cutFacets]
  simp only [loops, loop, joints, bothWays, List.map_append, ← Multiset.coe_add, Multiset.map_add, Multiset.map_coe,
    map_swap_map_swap, Prod.swap_swap, List.map_cons, List.map_nil, Multiset.map_singleton,
    ← Multiset.cons_coe, Multiset.coe_nil, ← Multiset.singleton_add, add_zero]
  abel

include hrings hsegments in
/-- Each loop closes with the long edge of a cut face. -/
theorem plumb_mem_edges : plumb rings true 0 ∈ Surface.edges (stitching rings segments) := by
  rw [edges_stitching hrings hsegments, Multiset.mem_coe]
  unfold loops loop
  simp only [List.mem_append, List.mem_singleton, true_or, or_true]

/-! ### Lines -/

/-- The edge runs up or down a column of a wall. -/
def OnLine (outer : Bool) (col : ℕ) (e : WallNode × WallNode) : Prop :=
  (e.1.outer = outer ∧ e.1.col = col) ∧ e.2.outer = outer ∧ e.2.col = col

/-- The edge runs up or down one of the four lines where the walls end at the cuts. -/
def OnCutLine (segments : ℕ) (e : WallNode × WallNode) : Prop :=
  ∃ outer col, (col = 0 ∨ col = segments) ∧ OnLine outer col e

theorem OnLine.eq {outer outer' : Bool} {col col' : ℕ} {e : WallNode × WallNode} (h : OnLine outer col e)
    (h' : OnLine outer' col' e) : outer = outer' ∧ col = col' :=
  ⟨h.1.1.symm.trans h'.1.1, h.1.2.symm.trans h'.1.2⟩

theorem onCutLine_swap {e : WallNode × WallNode} : OnCutLine segments e.swap ↔ OnCutLine segments e :=
  exists₂_congr fun _ _ => and_congr_right fun _ => and_comm

theorem mem_loop {outer : Bool} {col : ℕ} {e : WallNode × WallNode} :
    e ∈ loop rings outer col ↔
      (∃ ring < rings, e = (⟨outer, ring, col⟩, ⟨outer, ring + 1, col⟩)) ∨ e = plumb rings outer col := by
  simp only [loop, along, upward, List.mem_append, List.mem_map, List.mem_range, List.mem_singleton, eq_comm]

theorem onLine_of_mem_loop {outer : Bool} {col : ℕ} {e : WallNode × WallNode} (he : e ∈ loop rings outer col) :
    OnLine outer col e := by
  rcases mem_loop.mp he with ⟨ring, _, rfl⟩ | rfl
  · exact ⟨⟨rfl, rfl⟩, rfl, rfl⟩
  · exact ⟨⟨rfl, rfl⟩, rfl, rfl⟩

include hsegments in
/-- The way round a loop follows from its line: as it is listed at the first column of the outer wall and the
last column of the inner one, and backward at the other two. -/
theorem mem_loops {e : WallNode × WallNode} (he : e ∈ loops rings segments) :
    ∃ outer col, (col = 0 ∨ col = segments) ∧ OnLine outer col e ∧
      ((outer = true ↔ col = 0) ∧ e ∈ loop rings outer col ∨
        ¬(outer = true ↔ col = 0) ∧ e.swap ∈ loop rings outer col) := by
  have hne : segments ≠ 0 := by omega
  simp only [loops, List.mem_append, List.mem_map] at he
  rcases he with (he | he) | ⟨d, hd | hd, rfl⟩
  · exact ⟨true, 0, Or.inl rfl, onLine_of_mem_loop he, Or.inl ⟨by simp, he⟩⟩
  · exact ⟨false, segments, Or.inr rfl, onLine_of_mem_loop he, Or.inl ⟨by simp [hne], he⟩⟩
  · exact ⟨true, segments, Or.inr rfl, (onLine_of_mem_loop hd).symm,
      Or.inr ⟨by simp [hne], d.swap_swap.symm ▸ hd⟩⟩
  · exact ⟨false, 0, Or.inl rfl, (onLine_of_mem_loop hd).symm, Or.inr ⟨by simp, d.swap_swap.symm ▸ hd⟩⟩

include hsegments in
theorem onCutLine_of_mem_loops {e : WallNode × WallNode} (he : e ∈ loops rings segments) :
    OnCutLine segments e := by
  obtain ⟨outer, col, hcol, hline, -⟩ := mem_loops hsegments he
  exact ⟨outer, col, hcol, hline⟩

/-- Around a loop of more than one band no edge is the reverse of another. -/
theorem swap_notMem_loop (hmany : 1 < rings) {outer : Bool} {col : ℕ} {e : WallNode × WallNode}
    (he : e ∈ loop rings outer col) : e.swap ∉ loop rings outer col := by
  intro hback
  rcases mem_loop.mp he with ⟨ring, _, rfl⟩ | rfl <;> rcases mem_loop.mp hback with ⟨ring', _, h⟩ | h <;>
    simp only [plumb, Prod.swap_prod_mk, Prod.mk.injEq, WallNode.mk.injEq] at h <;>
    omega

include hsegments in
theorem swap_notMem_loops (hmany : 1 < rings) {e : WallNode × WallNode} (he : e ∈ loops rings segments) :
    e.swap ∉ loops rings segments := by
  intro hback
  obtain ⟨outer, col, -, hline, hway⟩ := mem_loops hsegments he
  obtain ⟨outer', col', -, hline', hway'⟩ := mem_loops hsegments hback
  obtain ⟨rfl, rfl⟩ := hline.eq hline'.symm
  rcases hway with ⟨hrising, he⟩ | ⟨hfalling, he⟩
  · rcases hway' with ⟨-, hback⟩ | ⟨hfalling, -⟩
    · exact swap_notMem_loop hmany he hback
    · exact hfalling hrising
  · rcases hway' with ⟨hrising, -⟩ | ⟨-, hback⟩
    · exact hfalling hrising
    · exact swap_notMem_loop hmany he hback

/-- Each loop of one band goes up in one edge and down in its reverse. -/
theorem map_swap_loops_one (segments : ℕ) :
    (↑(loops 1 segments) : Multiset (WallNode × WallNode)).map Prod.swap = ↑(loops 1 segments) := by
  have hloop (outer : Bool) (col : ℕ) : (↑(loop 1 outer col) : Multiset (WallNode × WallNode)).map Prod.swap =
      ↑(loop 1 outer col) := Multiset.coe_eq_coe.mpr (List.Perm.swap _ _ _)
  simp only [loops, List.map_append, ← Multiset.coe_add, ← Multiset.map_coe, Multiset.map_add, hloop]

/-- Inside of a part an edge changes its column or keeps to one between the cuts. -/
theorem col_of_mem_insides {place : ℕ → ℕ → WallNode} (hcol : ∀ row col, (place row col).col = col) {rows : ℕ}
    {e : WallNode × WallNode} (he : e ∈ insides segments place rows) :
    e.1.col ≠ e.2.col ∨ 0 < e.1.col ∧ e.1.col < segments := by
  simp only [insides, Grid.inner, diagonals, rightward, upward, falling, cells, List.mem_append, List.mem_flatMap,
    List.mem_map, List.mem_range, Prod.exists, List.pair_mem_product] at he
  rcases he with (⟨row, _, col, _, rfl⟩ | ⟨row, _, col, _, rfl⟩) | ⟨row, col, _, rfl⟩ <;>
    simp only [hcol] <;> omega

theorem col_of_mem_around {outer : Bool} {ring : ℕ} {e : WallNode × WallNode}
    (he : e ∈ around segments outer ring) : e.1.col ≠ e.2.col := by
  obtain ⟨col, _, rfl⟩ := List.mem_map.mp he
  exact (Nat.lt_succ_self col).ne

theorem not_onCutLine_of_mem_joints {e : WallNode × WallNode} (he : e ∈ joints rings segments) :
    ¬OnCutLine segments e := by
  have hoff : e.1.outer ≠ e.2.outer ∨ e.1.col ≠ e.2.col ∨ 0 < e.1.col ∧ e.1.col < segments := by
    simp only [joints, List.mem_append] at he
    rcases he with ((((he | he) | he) | he) | ((he | he) | he) | he) | he
    · exact Or.inr (col_of_mem_insides (fun _ _ => rfl) he)
    · exact Or.inr (col_of_mem_insides (fun _ _ => rfl) he)
    · exact Or.inr (col_of_mem_insides (fun _ _ => rfl) he)
    · exact Or.inr (col_of_mem_insides (fun _ _ => rfl) he)
    · exact Or.inr (Or.inl (col_of_mem_around he))
    · exact Or.inr (Or.inl (col_of_mem_around he))
    · exact Or.inr (Or.inl (col_of_mem_around he))
    · exact Or.inr (Or.inl (col_of_mem_around he))
    · simp only [List.mem_cons, List.not_mem_nil, or_false] at he
      rcases he with rfl | rfl | rfl | rfl | rfl | rfl <;> exact Or.inl nofun
  rintro ⟨outer, col, hcol, ⟨h1, h2⟩, h3, h4⟩
  rcases hoff with hoff | hoff | hoff
  · exact hoff (h1.trans h3.symm)
  · exact hoff (h2.trans h4.symm)
  · omega

include hsegments in
/-- In one band the surface of a cut tube is closed. -/
theorem isBalanced_stitching : (stitching 1 segments).IsBalanced := by
  rw [Surface.isBalanced_iff, edges_stitching le_rfl hsegments, ← Multiset.coe_add, Multiset.map_add,
    map_swap_loops_one, map_swap_bothWays]

include hsegments in
/-- In more bands the edges on the four lines lack their reverses, and no others. -/
theorem count_ne_count_swap_iff (hmany : 1 < rings) {e : WallNode × WallNode}
    (he : e ∈ Surface.edges (stitching rings segments)) :
    (Surface.edges (stitching rings segments)).count e ≠ (Surface.edges (stitching rings segments)).count e.swap ↔
      OnCutLine segments e := by
  rw [ne_eq, Surface.count_eq_count_swap_iff (edges_stitching hmany.le hsegments)]
  rw [edges_stitching hmany.le hsegments, Multiset.mem_coe, List.mem_append] at he
  constructor
  · intro hne
    by_contra hoff
    have hout : e ∉ loops rings segments := mt (onCutLine_of_mem_loops hsegments) hoff
    have hback : e.swap ∉ loops rings segments :=
      fun h => hoff (onCutLine_swap.mp (onCutLine_of_mem_loops hsegments h))
    rw [Multiset.count_eq_zero_of_notMem hout, Multiset.count_eq_zero_of_notMem hback] at hne
    exact hne rfl
  · intro hon heq
    have hmem : e ∈ loops rings segments := by
      refine he.resolve_right fun hin => ?_
      rcases List.mem_append.mp hin with hin | hin
      · exact not_onCutLine_of_mem_joints hin hon
      · obtain ⟨d, hd, rfl⟩ := List.mem_map.mp hin
        exact not_onCutLine_of_mem_joints hd (onCutLine_swap.mp hon)
    have hback : (↑(loops rings segments) : Multiset (WallNode × WallNode)).count e.swap = 0 :=
      Multiset.count_eq_zero_of_notMem (swap_notMem_loops hsegments hmany hmem)
    exact (Multiset.count_pos.mpr hmem).ne' (heq.trans hback)

/-! ### Columns -/

/-- All corners of the facet are in the columns of the tube. -/
def InColumns (segments : ℕ) (f : Facet WallNode) : Prop :=
  f.a.col ≤ segments ∧ f.b.col ≤ segments ∧ f.c.col ≤ segments

theorem inColumns_of_mem_facetsOver {place : ℕ → ℕ → WallNode} (hcol : ∀ row col, (place row col).col = col)
    {rows : ℕ} : ∀ f ∈ Lattice.facetsOver place rows segments, InColumns segments f := by
  intro f hf
  obtain ⟨row, _, seg, hseg, rfl | rfl⟩ := Lattice.mem_facetsOver.mp hf <;>
    simp only [InColumns, Lattice.lowerFacet, Lattice.upperFacet, hcol] <;>
    omega

theorem inColumns_of_mem_cutFacets {col : ℕ} (hcol : col ≤ segments) :
    ∀ f ∈ cutFacets rings col, InColumns segments f := by
  simp only [cutFacets, Quad.facets, List.forall_mem_cons]
  exact ⟨⟨hcol, hcol, hcol⟩, ⟨hcol, hcol, hcol⟩, nofun⟩

theorem inColumns_of_mem_map_flip {fs : Surface WallNode} (h : ∀ f ∈ fs, InColumns segments f) :
    ∀ f ∈ fs.map Facet.flip, InColumns segments f := by
  refine List.forall_mem_map.mpr fun f hf => ?_
  obtain ⟨ha, hb, hc⟩ := h f hf
  exact ⟨ha, hc, hb⟩

theorem col_le_of_mem_edges :
    ∀ e ∈ Surface.edges (stitching rings segments), e.1.col ≤ segments ∧ e.2.col ≤ segments := by
  have hwall (outer : Bool) : ∀ f ∈ wallFacets rings segments outer, InColumns segments f :=
    inColumns_of_mem_facetsOver fun _ _ => rfl
  have hend (ring : ℕ) : ∀ f ∈ endFacets segments ring, InColumns segments f :=
    inColumns_of_mem_facetsOver fun _ _ => rfl
  refine Surface.mem_of_mem_edges (S := {n : WallNode | n.col ≤ segments}) ?_
  simp only [stitching, List.forall_mem_append]
  exact ⟨⟨⟨⟨hwall true, inColumns_of_mem_map_flip (hwall false)⟩, inColumns_of_mem_map_flip (hend rings)⟩,
    hend 0⟩, inColumns_of_mem_map_flip (inColumns_of_mem_cutFacets (Nat.zero_le _)), inColumns_of_mem_cutFacets le_rfl⟩

end stitching

end Tube

end TriMesh
