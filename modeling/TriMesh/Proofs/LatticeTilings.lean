import TriMesh.Proofs.GridTilings
import TriMesh.Proofs.SweptFacets

/-! # Tilings of lattices

The stitching of a lattice by the rings and columns of its corners.

* Up to the corner with which a facet begins, the facets of a lattice are those on the back of a grid whose
  rows are the rings (`forall₂_facetsOver`).  So the stitching tiles the grid, and its rim is ring 0 with
  falling columns, the last ring with rising columns, column 0 upward and the last column downward
  (`edges_facetsOver`, `tiles_facetsOver`).
* The border of a surface are the edges that it walks one way only.  A surface that walks some edges one way
  and others both ways has the former as its border, if it walks no edge twice (`Surface.border_eq`).
* With the last column put on the first one, the two columns are walked both ways, and the two end rings are
  left (`stitches_facetsOver`).  That no edge is walked twice needs three columns there: around a ring of two
  the edge forward and the edge backward are one (`nodup_edges_seam`). -/

namespace TriMesh

namespace Surface

variable {β : Type}

theorem edges_of_similar {fs gs : Surface β} (h : List.Forall₂ Facet.Similar fs gs) :
    edges fs = edges gs := by
  induction h with
  | nil => rfl
  | cons hfg _ ih => rw [edges_cons, edges_cons, ih, Multiset.coe_eq_coe.mpr hfg.perm_edges]

variable [DecidableEq β]

/-- The directed edges whose reverses do not occur. -/
def border (fs : Surface β) : Multiset (β × β) := (edges fs).filter fun e => e.swap ∉ edges fs

theorem mem_border {fs : Surface β} {e : β × β} :
    e ∈ fs.border ↔ e ∈ edges fs ∧ e.swap ∉ edges fs := Multiset.mem_filter

/-- Edges that are walked both ways are no border. -/
theorem border_eq {fs : Surface β} {es ins : List (β × β)} (hedges : edges fs = ↑(es ++ Grid.bothWays ins))
    (hnodup : (edges fs).Nodup) (hes : ∀ e ∈ es, e.swap ∉ es) : fs.border = ↑es := by
  rw [hedges, Multiset.coe_nodup] at hnodup
  have hapart := List.disjoint_of_nodup_append hnodup
  have hboth {e : β × β} (he : e ∈ Grid.bothWays ins) : e.swap ∈ Grid.bothWays ins := by
    simp only [Grid.bothWays, List.mem_append, List.mem_map] at he ⊢
    rcases he with he | ⟨d, hd, rfl⟩
    · exact Or.inr ⟨e, he, rfl⟩
    · exact Or.inl ((Prod.swap_swap d).symm ▸ hd)
  have hkept : es.filter (fun e => e.swap ∉ es ++ Grid.bothWays ins) = es := by
    rw [List.filter_eq_self]
    intro e he
    simp only [List.mem_append, not_or, decide_eq_true_eq]
    exact ⟨hes e he, fun hback => hapart he (e.swap_swap ▸ hboth hback)⟩
  have hgone : (Grid.bothWays ins).filter (fun e => e.swap ∉ es ++ Grid.bothWays ins) = [] := by
    rw [List.filter_eq_nil_iff]
    intro e he
    simp [hboth he]
  simp only [border, hedges, Multiset.mem_coe, Multiset.filter_coe, List.filter_append, hkept, hgone,
    List.append_nil]

end Surface

namespace Grid

variable {β : Type} {place : ℕ → ℕ → β} {row col : ℕ} {diagonal : β × β} {f f' g g' : Facet β}

theorem coe_bothWays_append (es ds : List (β × β)) :
    (↑(bothWays (es ++ ds)) : Multiset (β × β)) = ↑(bothWays es) + ↑(bothWays ds) := by
  simp only [bothWays, List.map_append, ← Multiset.coe_add]
  abel

/-- Which corner the facets of a cell begin with does not matter. -/
theorem CutsCell.of_similar (h : CutsCell place row col diagonal f g) (hf : f'.Similar f)
    (hg : g'.Similar g) : CutsCell place row col diagonal f' g' := by
  constructor
  case left => exact ⟨hf.isProper_iff.mpr h.left.1, fun x hx => h.left.2 (hf.perm_corners.mem_iff.mp hx)⟩
  case right =>
    exact ⟨hg.isProper_iff.mpr h.right.1, fun x hx => h.right.2 (hg.perm_corners.mem_iff.mp hx)⟩
  case all =>
    intro x hx
    rw [hf.perm_corners.mem_iff, hg.perm_corners.mem_iff]
    exact h.all x hx
  case shared =>
    rw [hf.perm_edges.mem_iff, hg.perm_edges.mem_iff]
    exact h.shared

end Grid

namespace Lattice

open Grid

/-! ### Facets over places -/

section places
variable {β : Type} (place : ℕ → ℕ → β)

/-- The facet of a cell with two corners on its lower ring. -/
def lowerFacet (ring seg : ℕ) : Facet β := ⟨place (ring + 1) seg, place ring (seg + 1), place ring seg⟩

/-- The facet of a cell with two corners on its upper ring. -/
def upperFacet (ring seg : ℕ) : Facet β :=
  ⟨place (ring + 1) (seg + 1), place ring (seg + 1), place (ring + 1) seg⟩

/-- The facets of a lattice over the places of its nodes, cell by cell. -/
def facetsOver (rings segments : ℕ) : Surface β :=
  (List.range rings).flatMap fun ring =>
    (List.range segments).flatMap fun seg => [lowerFacet place ring seg, upperFacet place ring seg]

theorem facetsOver_eq (rings segments : ℕ) :
    facetsOver place rings segments = (cells (segments + 1) (rings + 1)).flatMap fun c =>
      [lowerFacet place c.1 c.2, upperFacet place c.1 c.2] :=
  (flatMap_cells (fun ring seg => [lowerFacet place ring seg, upperFacet place ring seg])
    (segments + 1) (rings + 1)).symm

variable {place} in
theorem mem_facetsOver {rings segments : ℕ} {f : Facet β} :
    f ∈ facetsOver place rings segments ↔ ∃ ring < rings, ∃ seg < segments,
      f = lowerFacet place ring seg ∨ f = upperFacet place ring seg := by
  simp only [facetsOver, List.mem_flatMap, List.mem_range, List.mem_cons, List.not_mem_nil, or_false]

theorem map_facetsOver {γ : Type} (g : β → γ) (rings segments : ℕ) :
    (facetsOver place rings segments).map (Facet.map g) =
      facetsOver (fun ring seg => g (place ring seg)) rings segments := by
  simp only [facetsOver, List.map_flatMap]
  rfl

theorem length_facetsOver (rings segments : ℕ) :
    (facetsOver place rings segments).length = 2 * rings * segments := by
  have hband (ring : ℕ) : ((List.range segments).flatMap fun seg =>
      [lowerFacet place ring seg, upperFacet place ring seg]).length = 2 * segments := by
    rw [length_pairs, List.length_range]
  rw [facetsOver, length_flatMap_of_length fun ring _ => hband ring, List.length_range, Nat.mul_right_comm]

theorem similar_lowerFacet (ring seg : ℕ) :
    (lowerFacet place ring seg).Similar (onFar place ring (ring + 1) seg) := Or.inr (Or.inl rfl)

theorem similar_upperFacet (ring seg : ℕ) :
    (upperFacet place ring seg).Similar (onNear place ring (ring + 1) seg) := Or.inr (Or.inr rfl)

/-- A lattice is stitched like the back of a grid. -/
theorem forall₂_facetsOver (rings segments : ℕ) :
    List.Forall₂ Facet.Similar (facetsOver place rings segments)
      ((cells (segments + 1) (rings + 1)).flatMap fun c => cellFacets place c.1 (c.1 + 1) c.2) := by
  rw [facetsOver_eq]
  induction cells (segments + 1) (rings + 1) with
  | nil => exact List.Forall₂.nil
  | cons c cs ih =>
      exact .cons (similar_lowerFacet place c.1 c.2) (.cons (similar_upperFacet place c.1 c.2) ih)

/-- A lattice walks its rim clockwise, and everything inside both ways. -/
theorem edges_facetsOver {rings segments : ℕ} (hrings : 1 ≤ rings) (hsegments : 1 ≤ segments) :
    Surface.edges (facetsOver place rings segments) =
      ↑((Grid.rim place (segments + 1) (rings + 1)).map Prod.swap ++
        bothWays (Grid.inner place (segments + 1) (rings + 1) ++
          diagonals (falling place) (segments + 1) (rings + 1))) := by
  obtain ⟨m, rfl⟩ := Nat.exists_eq_add_of_le' hsegments
  obtain ⟨n, rfl⟩ := Nat.exists_eq_add_of_le' hrings
  rw [Surface.edges_of_similar (forall₂_facetsOver place _ _),
    ← Surface.edges_of_perm (backFacets_perm place _ _), edges_backFacets place m n, List.append_assoc,
    ← Multiset.coe_add, ← Multiset.coe_add, ← Multiset.coe_add, coe_bothWays_append]

/-- The rim as a lattice walks it. -/
theorem map_swap_rim (rings segments : ℕ) :
    (Grid.rim place (segments + 1) (rings + 1)).map Prod.swap =
      ((List.range segments).map (rightward place 0)).map Prod.swap ++
        ((List.range rings).map (upward place · segments)).map Prod.swap ++
        (List.range segments).map (rightward place rings) ++ (List.range rings).map (upward place · 0) := by
  simp only [Grid.rim, Nat.add_sub_cancel, List.map_append, List.map_map, Function.comp_def, Prod.swap_swap]

/-- Over different places the stitching tiles the grid of rings and columns. -/
theorem tiles_facetsOver {rings segments : ℕ} (h : Distinct place (segments + 1) (rings + 1))
    (hrings : 1 ≤ rings) (hsegments : 1 ≤ segments) :
    Tiles place (segments + 1) (rings + 1) ((Grid.rim place (segments + 1) (rings + 1)).map Prod.swap)
      (falling place) (facetsOver place rings segments) := by
  have hback := h.tiles_back (Nat.succ_le_succ hsegments) (Nat.succ_le_succ hrings)
  have hedges := edges_facetsOver place hrings hsegments
  rw [← Multiset.coe_add, coe_bothWays_append, Multiset.coe_add, Multiset.coe_add,
    ← List.append_assoc] at hedges
  constructor
  case cells =>
    refine ⟨lowerFacet place, upperFacet place, List.Perm.of_eq (facetsOver_eq place _ _), fun c hc => ?_⟩
    exact (cutsCell_back (h.nodup_cellCorners hc)).of_similar (similar_lowerFacet place _ _)
      (similar_upperFacet place _ _)
  case edges => exact hedges
  case once =>
    rw [hedges, ← hback.edges]
    exact hback.once

end places

/-! ### Rings and columns -/

/-- The edge lies along the first or the last ring, or along the first or the last column. -/
def AlongEnd (rings segments : ℕ) (e : (ℕ × ℕ) × (ℕ × ℕ)) : Prop :=
  e.1.1 = 0 ∧ e.2.1 = 0 ∨ e.1.1 = rings ∧ e.2.1 = rings ∨
    e.1.2 = 0 ∧ e.2.2 = 0 ∨ e.1.2 = segments ∧ e.2.2 = segments

/-- The node, with the last column put on the first one. -/
def seam (segments : ℕ) (n : ℕ × ℕ) : ℕ × ℕ := (n.1, if n.2 = segments then 0 else n.2)

/-- The end rings of a lattice whose last column is its first one, as it walks them: ring 0 with falling
columns and the last ring with rising columns. -/
def endRings (rings segments : ℕ) : List ((ℕ × ℕ) × (ℕ × ℕ)) :=
  (List.range segments).map (fun seg => (seam segments (0, seg + 1), (0, seg))) ++
    (List.range segments).map fun seg => ((rings, seg), seam segments (rings, seg + 1))

/-- Facets between nodes, given by ring and column, that stitch a lattice together. -/
structure Stitches (rings segments : ℕ) (fs : Surface (ℕ × ℕ)) : Prop where
  /-- Two facets cut each cell, and no directed edge is walked twice. -/
  tiles : Tiles Prod.mk (segments + 1) (rings + 1) ((Grid.rim Prod.mk (segments + 1) (rings + 1)).map Prod.swap)
    (falling Prod.mk) fs
  /-- An edge lacks its reverse exactly along the ends of the lattice. -/
  ends : ∀ e ∈ Surface.edges fs, e.swap ∉ Surface.edges fs ↔ AlongEnd rings segments e
  /-- With the last column put on the first one, still no directed edge is walked twice. -/
  once : (Surface.edges (fs.map (Facet.map (seam segments)))).Nodup
  /-- With the last column put on the first one, only the end rings are left. -/
  closed : Surface.border (fs.map (Facet.map (seam segments))) = ↑(endRings rings segments)

theorem distinct_pairs (width height : ℕ) : Distinct Prod.mk width height :=
  fun _ _ _ _ _ _ _ _ h => Prod.mk.inj h

section pairs
variable {rings segments : ℕ}

theorem seam_of_lt (ring : ℕ) {seg : ℕ} (h : seg < segments) : seam segments (ring, seg) = (ring, seg) :=
  Prod.ext rfl (if_neg h.ne)

theorem seam_last (ring : ℕ) : seam segments (ring, segments) = (ring, 0) := Prod.ext rfl (if_pos rfl)

/-- The column behind another one is the next, or column 0 behind the last. -/
theorem exists_seam_succ {seg : ℕ} (h : seg < segments) :
    ∃ next, (∀ ring, seam segments (ring, seg + 1) = (ring, next)) ∧
      (seg + 1 < segments ∧ next = seg + 1 ∨ seg + 1 = segments ∧ next = 0) := by
  refine ⟨if seg + 1 = segments then 0 else seg + 1, fun _ => rfl, ?_⟩
  split <;> omega

theorem mem_rim_pairs {e : (ℕ × ℕ) × (ℕ × ℕ)}
    (he : e ∈ (Grid.rim Prod.mk (segments + 1) (rings + 1)).map Prod.swap) :
    (∃ seg < segments, e = ((0, seg + 1), (0, seg)) ∨ e = ((rings, seg), (rings, seg + 1))) ∨
      ∃ ring < rings, e = ((ring + 1, segments), (ring, segments)) ∨ e = ((ring, 0), (ring + 1, 0)) := by
  simp only [Grid.rim, rightward, upward, Nat.add_sub_cancel, List.mem_map, List.mem_append,
    List.mem_range] at he
  obtain ⟨d, ((⟨seg, hseg, rfl⟩ | ⟨ring, hring, rfl⟩) | ⟨seg, hseg, rfl⟩) | ⟨ring, hring, rfl⟩, rfl⟩ := he
  · exact Or.inl ⟨seg, hseg, Or.inl rfl⟩
  · exact Or.inr ⟨ring, hring, Or.inl rfl⟩
  · exact Or.inl ⟨seg, hseg, Or.inr rfl⟩
  · exact Or.inr ⟨ring, hring, Or.inr rfl⟩

theorem alongEnd_swap {e : (ℕ × ℕ) × (ℕ × ℕ)} :
    AlongEnd rings segments e.swap ↔ AlongEnd rings segments e := by
  simp only [AlongEnd, Prod.fst_swap, Prod.snd_swap, and_comm]

theorem not_alongEnd_of_mem {e : (ℕ × ℕ) × (ℕ × ℕ)}
    (he : e ∈ bothWays (Grid.inner Prod.mk (segments + 1) (rings + 1) ++
      diagonals (falling Prod.mk) (segments + 1) (rings + 1))) : ¬AlongEnd rings segments e := by
  have hone {d : (ℕ × ℕ) × (ℕ × ℕ)} (hd : d ∈ Grid.inner Prod.mk (segments + 1) (rings + 1) ++
      diagonals (falling Prod.mk) (segments + 1) (rings + 1)) : ¬AlongEnd rings segments d := by
    simp only [Grid.inner, diagonals, rightward, upward, falling, cells, List.mem_append, List.mem_flatMap,
      List.mem_map, List.mem_range, Prod.exists, List.pair_mem_product] at hd
    rcases hd with (⟨ring, hring, seg, hseg, rfl⟩ | ⟨ring, hring, seg, hseg, rfl⟩) | ⟨ring, seg, _, rfl⟩
    · simp only [AlongEnd]
      omega
    · simp only [AlongEnd]
      omega
    · simp only [AlongEnd]
      omega
  rcases List.mem_append.mp he with he | he
  · exact hone he
  · obtain ⟨d, hd, rfl⟩ := List.mem_map.mp he
    rw [alongEnd_swap]
    exact hone hd

/-- The border of a lattice are the edges along its ends. -/
theorem border_facetsOver (hrings : 1 ≤ rings) (hsegments : 1 ≤ segments) :
    Surface.border (facetsOver Prod.mk rings segments) =
      ↑((Grid.rim Prod.mk (segments + 1) (rings + 1)).map Prod.swap) := by
  have htiles := tiles_facetsOver _ (distinct_pairs _ _) hrings hsegments
  refine Surface.border_eq (edges_facetsOver Prod.mk hrings hsegments) htiles.once ?_
  intro e he hback
  rcases mem_rim_pairs he with ⟨seg, _, rfl | rfl⟩ | ⟨ring, _, rfl | rfl⟩ <;>
    rcases mem_rim_pairs hback with ⟨_, _, h | h⟩ | ⟨_, _, h | h⟩ <;>
    simp only [Prod.swap_prod_mk, Prod.mk.injEq] at h <;>
    omega

/-- An edge of a lattice lacks its reverse exactly along the ends. -/
theorem swap_notMem_edges_iff (hrings : 1 ≤ rings) (hsegments : 1 ≤ segments) {e : (ℕ × ℕ) × (ℕ × ℕ)}
    (he : e ∈ Surface.edges (facetsOver Prod.mk rings segments)) :
    e.swap ∉ Surface.edges (facetsOver Prod.mk rings segments) ↔ AlongEnd rings segments e := by
  have hborder : e ∈ Surface.border (facetsOver Prod.mk rings segments) ↔ _ := Surface.mem_border
  rw [border_facetsOver hrings hsegments, Multiset.mem_coe] at hborder
  constructor
  · intro hlack
    rcases mem_rim_pairs (hborder.mpr ⟨he, hlack⟩) with ⟨seg, _, rfl | rfl⟩ | ⟨ring, _, rfl | rfl⟩
    · exact Or.inl ⟨rfl, rfl⟩
    · exact Or.inr (Or.inl ⟨rfl, rfl⟩)
    · exact Or.inr (Or.inr (Or.inr ⟨rfl, rfl⟩))
    · exact Or.inr (Or.inr (Or.inl ⟨rfl, rfl⟩))
  · intro hend
    rw [edges_facetsOver _ hrings hsegments, Multiset.mem_coe, List.mem_append] at he
    exact (hborder.mp (he.resolve_right fun hin => not_alongEnd_of_mem hin hend)).2

/-- With the last column put on the first one no directed edge is walked twice. -/
theorem nodup_edges_seam (hsegments : 3 ≤ segments) :
    (Surface.edges (facetsOver (fun ring seg => seam segments (ring, seg)) rings segments)).Nodup := by
  unfold Surface.edges
  rw [facetsOver_eq, List.flatMap_assoc, Multiset.coe_nodup, List.nodup_flatMap]
  refine ⟨fun c hc => ?_, (nodup_cells _ _).pairwise_of_forall_ne fun c hc d hd hcd e hec hed => hcd ?_⟩
  · have hlt : c.2 < segments := Nat.succ_lt_succ_iff.mp (mem_cells.mp hc).2
    obtain ⟨next, hnext, hcases⟩ := exists_seam_succ hlt
    simp only [lowerFacet, upperFacet, Facet.edges, hnext, seam_of_lt _ hlt, List.flatMap_cons,
      List.flatMap_nil, List.append_nil, List.cons_append, List.nil_append, List.nodup_cons, List.mem_cons,
      List.not_mem_nil, or_false, Prod.mk.injEq, List.nodup_nil, and_true, true_and, not_false_eq_true]
    omega
  · have hlt : c.2 < segments := Nat.succ_lt_succ_iff.mp (mem_cells.mp hc).2
    have hlt' : d.2 < segments := Nat.succ_lt_succ_iff.mp (mem_cells.mp hd).2
    obtain ⟨next, hnext, hcases⟩ := exists_seam_succ hlt
    obtain ⟨next', hnext', hcases'⟩ := exists_seam_succ hlt'
    simp only [lowerFacet, upperFacet, Facet.edges, hnext, seam_of_lt _ hlt, List.flatMap_cons,
      List.flatMap_nil, List.append_nil, List.cons_append, List.nil_append, List.mem_cons,
      List.not_mem_nil, or_false] at hec
    simp only [lowerFacet, upperFacet, Facet.edges, hnext', seam_of_lt _ hlt', List.flatMap_cons,
      List.flatMap_nil, List.append_nil, List.cons_append, List.nil_append, List.mem_cons,
      List.not_mem_nil, or_false] at hed
    rcases hec with rfl | rfl | rfl | rfl | rfl | rfl <;> simp only [Prod.mk.injEq] at hed <;>
      exact Prod.ext (by omega) (by omega)

theorem edges_facetsOver_seam (hrings : 1 ≤ rings) (hsegments : 1 ≤ segments) :
    let place := fun ring seg => seam segments (ring, seg)
    Surface.edges (facetsOver place rings segments) =
      ↑(endRings rings segments ++ bothWays ((List.range rings).map (upward place · 0) ++
        Grid.inner place (segments + 1) (rings + 1) ++
        diagonals (falling place) (segments + 1) (rings + 1))) := by
  intro place
  have hring (ring : ℕ) : (List.range segments).map (rightward place ring) =
      (List.range segments).map fun seg => ((ring, seg), seam segments (ring, seg + 1)) := by
    refine List.map_congr_left fun seg hseg => Prod.ext ?_ rfl
    exact seam_of_lt ring (List.mem_range.mp hseg)
  have hlast (ring : ℕ) : upward place ring segments = upward place ring 0 := by
    simp only [place, upward, seam_last, seam_of_lt _ (Nat.lt_of_succ_le hsegments)]
  have hrising : endRings rings segments =
      ((List.range segments).map (rightward place 0)).map Prod.swap ++
        (List.range segments).map (rightward place rings) := by
    rw [hring, hring, List.map_map]
    rfl
  rw [edges_facetsOver _ hrings hsegments, map_swap_rim, hrising]
  simp only [hlast, bothWays, List.map_append, ← Multiset.coe_add]
  abel

/-- With the last column put on the first one, the border of a lattice are its end rings. -/
theorem border_facetsOver_seam (hrings : 1 ≤ rings) (hsegments : 3 ≤ segments) :
    Surface.border (facetsOver (fun ring seg => seam segments (ring, seg)) rings segments) =
      ↑(endRings rings segments) := by
  refine Surface.border_eq (edges_facetsOver_seam hrings (by omega)) (nodup_edges_seam hsegments) ?_
  intro e he hback
  simp only [endRings, List.mem_append, List.mem_map, List.mem_range] at he hback
  rcases he with ⟨seg, hseg, rfl⟩ | ⟨seg, hseg, rfl⟩ <;>
    rcases hback with ⟨seg', hseg', h⟩ | ⟨seg', hseg', h⟩ <;>
    obtain ⟨next, hnext, hcases⟩ := exists_seam_succ hseg <;>
    obtain ⟨next', hnext', hcases'⟩ := exists_seam_succ hseg' <;>
    simp only [hnext, hnext', Prod.swap_prod_mk, Prod.mk.injEq] at h <;>
    omega

/-- The stitching of a lattice. -/
theorem stitches_facetsOver (hrings : 1 ≤ rings) (hsegments : 3 ≤ segments) :
    Stitches rings segments (facetsOver Prod.mk rings segments) := by
  have hone : 1 ≤ segments := by omega
  have hseam : (facetsOver Prod.mk rings segments).map (Facet.map (seam segments)) =
      facetsOver (fun ring seg => seam segments (ring, seg)) rings segments :=
    map_facetsOver Prod.mk (seam segments) rings segments
  constructor
  case tiles => exact tiles_facetsOver _ (distinct_pairs _ _) hrings hone
  case ends => exact fun e he => swap_notMem_edges_iff hrings hone he
  case once =>
    rw [hseam]
    exact nodup_edges_seam hsegments
  case closed =>
    rw [hseam]
    exact border_facetsOver_seam hrings hsegments

end pairs

/-! ### Numbers of nodes -/

/-- Nodes are numbered ring by ring, without a gap. -/
theorem bijOn_node (rings segments first : ℕ) :
    Set.BijOn (fun n : ℕ × ℕ => first + node segments n.1 n.2) {n | n.1 ≤ rings ∧ n.2 ≤ segments}
      (Set.Ico first (first + (rings + 1) * (segments + 1))) := by
  refine ⟨fun n hn => ?_, fun n hn m hm heq => ?_, fun i hi => ?_⟩
  · exact ⟨Nat.le_add_right _ _, Nat.add_lt_add_left (node_lt hn.1 hn.2) first⟩
  · exact Prod.ext_iff.mpr ((node_eq_iff hn.2 hm.2).mp (Nat.add_left_cancel heq))
  · obtain ⟨k, rfl⟩ := Nat.exists_eq_add_of_le hi.1
    have hk : k < (segments + 1) * (rings + 1) := Nat.mul_comm _ (rings + 1) ▸ Nat.lt_of_add_lt_add_left hi.2
    refine ⟨(k / (segments + 1), k % (segments + 1)), ⟨?_, ?_⟩, ?_⟩
    · exact Nat.le_of_lt_succ (Nat.div_lt_of_lt_mul hk)
    · exact Nat.le_of_lt_succ (Nat.mod_lt _ (Nat.succ_pos segments))
    · exact congrArg (first + ·) (Nat.div_add_mod' k (segments + 1))

theorem map_facet_triangles (rings segments first : ℕ) :
    ((triangles rings segments).map (·.shift first)).map Triangle.facet =
      facetsOver (fun ring seg => first + node segments ring seg) rings segments := by
  simp only [triangles, facetsOver, List.map_flatMap, cell_eq, lowerFacet, upperFacet, Nat.add_comm first]
  rfl

/-- The facets of a lattice are those over the positions of its nodes. -/
theorem facets_mesh_eq_facetsOver {α : Type} [Scalar α] (l : Lattice α) :
    l.mesh.facets = facetsOver l.position l.ringCount l.segmentCount := l.facets_mesh

theorem length_facets_mesh {α : Type} [Scalar α] (l : Lattice α) :
    l.mesh.facets.length = 2 * l.ringCount * l.segmentCount := by
  rw [facets_mesh_eq_facetsOver, length_facetsOver]

/-- Every triangle of the stitching is a facet over the places of the nodes. -/
theorem map_facet?_triangles {β : Type} {places : Array β} {place : ℕ → ℕ → β} {rings segments : ℕ}
    (h : ∀ ring ≤ rings, ∀ seg ≤ segments, places[node segments ring seg]? = some (place ring seg)) :
    (triangles rings segments).map (Triangle.facet? places) =
      (facetsOver place rings segments).map some := by
  unfold triangles facetsOver
  simp only [List.map_flatMap]
  refine List.flatMap_congr fun ring hring => List.flatMap_congr fun seg hseg => ?_
  rw [List.mem_range] at hring hseg
  have h00 := h ring hring.le seg hseg.le
  have h01 := h ring hring.le (seg + 1) hseg
  have h10 := h (ring + 1) hring seg hseg.le
  have h11 := h (ring + 1) hring (seg + 1) hseg
  rw [cell_eq, List.map_cons, List.map_cons, Triangle.facet?_eq h10 h01 h00, Triangle.facet?_eq h11 h01 h10]
  rfl

theorem length_triangles (rings segments : ℕ) :
    (triangles rings segments).length = 2 * rings * segments := by
  have hfacets := congrArg List.length (map_facet_triangles rings segments 0)
  rwa [List.length_map, List.length_map, length_facetsOver] at hfacets

end Lattice

namespace SubMesh

theorem indices_addLattice {α : Type} [Scalar α] (s : SubMesh α) (l : Lattice α) :
    (s.addLattice l).1.indices = s.indices ++
      Triangle.flatten ((Lattice.triangles l.ringCount l.segmentCount).map (·.shift s.vertexCount)) := by
  rw [Triangle.flatten_map_shift]
  exact Array.ext' (by simp [addLattice, indices_append, Lattice.mesh])

/-- **A lattice is stitched cell by cell.**  It is put behind whatever a submesh holds, with one vertex,
normal and texture coordinate for each node.  Its span numbers the nodes through and finds the vertex of each
one.  The triangles cut each cell in two and walk no directed edge twice; an edge lacks its reverse exactly
along the end rings and the end columns, and with the last column put on the first one exactly along the end
rings, backward around ring 0 and forward around the last one. -/
theorem addLattice_stitches {α : Type} [Scalar α] (s : SubMesh α) (l : Lattice α) :
    let rings := l.ringCount
    let segments := l.segmentCount
    let count := (rings + 1) * (segments + 1)
    let t := (s.addLattice l).1
    let span := (s.addLattice l).2
    ∃ (vs ns : Array (Vec3 α)) (uvs : Array (Vec2 α)) (ts : List Triangle) (fs : Surface (ℕ × ℕ)),
      t = ⟨s.vertices ++ vs, s.normals ++ ns, s.texcoords ++ uvs, s.indices ++ Triangle.flatten ts⟩ ∧
      vs.size = count ∧ ns.size = count ∧ uvs.size = count ∧
      (Triangle.flatten ts).length = 6 * rings * segments ∧ span.firstIndex = s.indexCount ∧
      Set.BijOn (fun n : ℕ × ℕ => span.vertex segments n.1 n.2) {n | n.1 ≤ rings ∧ n.2 ≤ segments}
        (Set.Ico s.vertexCount (s.vertexCount + count)) ∧
      (∀ ring ≤ rings, ∀ seg ≤ segments, t.vertices[span.vertex segments ring seg]? =
        some (Lattice.onCircle (l.radius ring) (Lattice.columnAngle l.sweep segments seg)
          (l.height ring))) ∧
      (∀ i ∈ Triangle.flatten ts, s.vertexCount ≤ i ∧ i < s.vertexCount + count) ∧
      ts.map Triangle.facet = fs.map (Facet.map fun n => span.vertex segments n.1 n.2) ∧
      Lattice.Stitches rings segments fs := by
  intro rings segments count t span
  have hcomplete := l.mesh_complete
  have hcount : l.mesh.vertexCount = count := l.vertexCount_mesh
  refine ⟨l.mesh.vertices, l.mesh.normals, l.mesh.texcoords,
    (Lattice.triangles rings segments).map (·.shift s.vertexCount), Lattice.facetsOver Prod.mk rings segments,
    ?_, hcount, hcomplete.normals.trans hcount, hcomplete.texcoords.trans hcount, ?_, rfl, ?_, ?_, ?_, ?_,
    Lattice.stitches_facetsOver (one_le_clampRings _) (three_le_clampSegments _)⟩
  · rw [← s.indices_addLattice l]
    rfl
  · rw [Triangle.length_flatten, List.length_map, Lattice.length_triangles]
    ring
  · exact Lattice.bijOn_node rings segments s.vertexCount
  · intro ring hring seg hseg
    refine (Array.getElem?_append_right (Nat.le_add_right _ _)).trans ?_
    rw [Nat.add_sub_cancel_left]
    exact l.getElem?_vertices hring hseg
  · intro i hi
    rw [Triangle.flatten_map_shift] at hi
    obtain ⟨j, hj, rfl⟩ := List.mem_map.mp hi
    have hlt := Triangle.forall_mem_flatten_lt Lattice.below_of_mem_triangles j hj
    exact ⟨Nat.le_add_left _ _, Nat.add_comm j _ ▸ Nat.add_lt_add_left hlt _⟩
  · rw [Lattice.map_facet_triangles, Lattice.map_facetsOver]
    rfl

end SubMesh

end TriMesh
