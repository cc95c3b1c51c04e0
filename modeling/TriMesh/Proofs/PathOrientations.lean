import TriMesh.Proofs.EdgeNormals

/-! # Orientations of paths

The normals of a figure do not depend on the way its paths are walked.  Scalars are exact.

* The box around some edges is the least one that takes in all their ends (`encloses_boxAround`), so
  that the extent, and the matching tolerance with it, depends on the ends alone (`extent_congr`).
* A path walked backward has the same edges, each walked backward, in another order
  (`edges_reverse_perm`).
* With `edgeNormal_reverse` each edge keeps its normal, and the whole figure has the same normals or
  fails with the same counts (`resolved_turned`). -/

namespace TriMesh

/-- The ends of an edge, whichever way it is walked. -/
def Edge.undirected {α : Type} (e : Edge α) : Sym2 (Vec2 α) := s(e.start, e.stop)

theorem Edge.undirected_reverse {α : Type} (e : Edge α) : e.reverse.undirected = e.undirected :=
  Sym2.eq_swap

/-! ### Paths walked backward -/

namespace Path

variable {α : Type}

/-- The path walked backward, if so wanted. -/
def turned (path : Path α) (backward : Bool) : Path α := if backward then path.reverse else path

/-- Another starting point gives the same edges in another order. -/
theorem edges_concat_perm (p : Vec2 α) (rest : Path α) :
    (Path.edges (rest ++ [p])).Perm (Path.edges (p :: rest)) := by
  cases rest with
  | nil => exact List.Perm.refl _
  | cons q rest =>
      rw [edges_concat]
      exact List.perm_append_singleton _ _

theorem edges_reverse_perm (path : Path α) :
    (Path.edges path.reverse).Perm (path.edges.map Edge.reverse) := by
  cases path with
  | nil => exact List.Perm.refl _
  | cons p rest =>
      -- from the same starting point, the way back has the edges of the path in opposite order
      have hback : Path.edges (p :: rest.reverse) =
          ((Path.edges (p :: rest)).map Edge.reverse).reverse := by
        simp only [Path.edges, List.map_zipWith]
        rw [List.reverse_zipWith (by simp), List.zipWith_comm]
        simp [Edge.reverse]
      rw [List.reverse_cons]
      exact (edges_concat_perm p rest.reverse).trans (hback ▸ List.reverse_perm _)

end Path

/-- What both ways of an edge have in common stays when paths are walked backward. -/
theorem boundaryEdges_turned_perm {α β : Type} {f : Edge α → β} (hf : ∀ e, f e.reverse = f e)
    (paths : List (Path α × Bool)) :
    ((boundaryEdges (paths.map fun p => p.1.turned p.2)).map f).Perm
      ((boundaryEdges (paths.map Prod.fst)).map f) := by
  have hpath (p : Path α × Bool) :
      ((p.1.turned p.2).edges.map f).Perm (p.1.edges.map f) := by
    obtain ⟨path, _ | _⟩ := p
    · exact List.Perm.refl _
    · have hmap := (Path.edges_reverse_perm path).map f
      rwa [List.map_map, show f ∘ Edge.reverse = f from funext hf] at hmap
  simp only [boundaryEdges, List.map_flatMap, List.flatMap_map]
  exact List.Perm.flatMap_left _ fun p _ => hpath p

namespace Extrusion

/-! ### Extents -/

/-- A box, by its least and its greatest corner, with room for one more edge. -/
def widen {α : Type} [Scalar α] (box : Vec2 α × Vec2 α) (e : Edge α) : Vec2 α × Vec2 α :=
  ((box.1.min e.start).min e.stop, (box.2.max e.start).max e.stop)

/-- The box around the ends of some edges. -/
def boxAround {α : Type} [Scalar α] (e : Edge α) (edges : List (Edge α)) : Vec2 α × Vec2 α :=
  (e :: edges).foldl widen (e.start, e.start)

theorem extent_cons {α : Type} [Scalar α] (e : Edge α) (edges : List (Edge α)) :
    extent (e :: edges) = ((boxAround e edges).2 - (boxAround e edges).1).length := rfl

/-- One box has room for another. -/
def Encloses (outer inner : Vec2 ℝ × Vec2 ℝ) : Prop :=
  (outer.1.x ≤ inner.1.x ∧ outer.1.y ≤ inner.1.y) ∧ inner.2.x ≤ outer.2.x ∧ inner.2.y ≤ outer.2.y

theorem Encloses.refl (box : Vec2 ℝ × Vec2 ℝ) : Encloses box box :=
  ⟨⟨le_rfl, le_rfl⟩, le_rfl, le_rfl⟩

theorem Encloses.antisymm {a b : Vec2 ℝ × Vec2 ℝ} (h : Encloses a b) (h' : Encloses b a) : a = b :=
  Prod.ext (Vec2.ext (h.1.1.antisymm h'.1.1) (h.1.2.antisymm h'.1.2))
    (Vec2.ext (h'.2.1.antisymm h.2.1) (h'.2.2.antisymm h.2.2))

theorem encloses_widen {outer box : Vec2 ℝ × Vec2 ℝ} {e : Edge ℝ} :
    Encloses outer (widen box e) ↔
      Encloses outer box ∧ ∀ p ∈ e.undirected, Encloses outer (p, p) := by
  simp only [Encloses, widen, Vec2.min, Vec2.max, Scalar.real_min, Scalar.real_max, le_min_iff,
    max_le_iff, Edge.undirected, Sym2.mem_iff, forall_eq_or_imp, forall_eq]
  tauto

theorem encloses_foldl_widen {outer : Vec2 ℝ × Vec2 ℝ} : ∀ {edges : List (Edge ℝ)}
    {box : Vec2 ℝ × Vec2 ℝ}, Encloses outer (edges.foldl widen box) ↔
      Encloses outer box ∧ ∀ z ∈ edges.map Edge.undirected, ∀ p ∈ z, Encloses outer (p, p)
  | [], box => by simp
  | e :: edges, box => by
      rw [List.foldl_cons, encloses_foldl_widen, encloses_widen, List.map_cons, List.forall_mem_cons,
        and_assoc]

/-- The box around some edges is the least with room for all their ends. -/
theorem encloses_boxAround {outer : Vec2 ℝ × Vec2 ℝ} {e : Edge ℝ} {edges : List (Edge ℝ)} :
    Encloses outer (boxAround e edges) ↔
      ∀ z ∈ (e :: edges).map Edge.undirected, ∀ p ∈ z, Encloses outer (p, p) := by
  unfold boxAround
  rw [encloses_foldl_widen, and_iff_right_iff_imp]
  intro h
  exact h e.undirected List.mem_cons_self e.start (Sym2.mem_mk_left _ _)

/-- The extent depends on the ends of the edges alone. -/
theorem extent_congr {edges edges' : List (Edge ℝ)}
    (h : (edges.map Edge.undirected).Perm (edges'.map Edge.undirected)) :
    extent edges = extent edges' := by
  cases edges with
  | nil =>
      rw [List.map_nil, List.nil_perm, List.map_eq_nil_iff] at h
      rw [h]
  | cons e edges =>
      cases edges' with
      | nil => cases h.eq_nil
      | cons e' edges' =>
          have hbox (outer : Vec2 ℝ × Vec2 ℝ) :
              Encloses outer (boxAround e edges) ↔ Encloses outer (boxAround e' edges') := by
            simp only [encloses_boxAround, h.mem_iff]
          have heq : boxAround e edges = boxAround e' edges' :=
            ((hbox _).mp (Encloses.refl _)).antisymm ((hbox _).mpr (Encloses.refl _))
          rw [extent_cons, extent_cons, heq]

/-! ### The normals of a figure -/

/-- The normals of some edges, each beside its edge, whichever way that is walked. -/
noncomputable def resolved (t : Triangulation ℝ) (edges : List (Edge ℝ)) :
    Except MeshError (Multiset (Sym2 (Vec2 ℝ) × Vec3 ℝ)) :=
  (outwardNormals edges t).map fun normals => ↑((edges.map Edge.undirected).zip normals)

/-- Where nothing is left out, what is found stands beside what it is found for. -/
theorem zip_filterMap {β γ δ : Type} {f : β → Option γ} {g : β → δ} {l : List β}
    (h : (l.filterMap f).length = l.length) :
    (l.map g).zip (l.filterMap f) = l.filterMap fun b => (f b).map (g b, ·) := by
  have hfound : l.map f = (l.filterMap f).map some := map_eq_map_some_iff.mpr ⟨rfl, h⟩
  have hpairs : l.map (fun b => (f b).map (g b, ·)) = ((l.map g).zip (l.filterMap f)).map some :=
    calc l.map (fun b => (f b).map (g b, ·))
        = List.zipWith (fun c y => y.map (c, ·)) (l.map g) (l.map f) := by
          rw [List.zipWith_map, List.zipWith_self]
      _ = ((l.map g).zip (l.filterMap f)).map some := by
          rw [hfound, List.zipWith_map_right, List.zip, List.map_zipWith]
          rfl
  exact (map_eq_map_some_iff.mp hpairs).1.symm

/-- The outcome by the edges with what is found for each, which need not be told in order. -/
theorem resolved_eq (t : Triangulation ℝ) (edges : List (Edge ℝ)) :
    let pairs := edges.map fun d =>
      (d.undirected, edgeNormal t (Tolerance.pointMatch (extent edges)) d)
    let found := pairs.filterMap fun p => p.2.map (p.1, ·)
    resolved t edges =
      if found.length = pairs.length then .ok ↑found
      else .error (.triangulationFailed (.unresolvedNormals found.length pairs.length)) := by
  intro pairs found
  have hfound : found = edges.filterMap fun d =>
      (edgeNormal t (Tolerance.pointMatch (extent edges)) d).map (d.undirected, ·) :=
    List.filterMap_map
  have hnormals : found.length =
      (edges.filterMap (edgeNormal t (Tolerance.pointMatch (extent edges)))).length := by
    rw [hfound, List.length_filterMap_eq_countP, List.length_filterMap_eq_countP]
    simp only [Option.isSome_map]
  have hpairs : pairs.length = edges.length := List.length_map _
  rw [hnormals, hpairs]
  unfold resolved outwardNormals
  dsimp only
  split
  · rename_i hlength
    rw [hfound, ← zip_filterMap hlength]
    rfl
  · rfl

/-- Walking some paths backward changes neither the normals nor the error. -/
theorem resolved_turned (t : Triangulation ℝ) (paths : List (Path ℝ × Bool)) :
    resolved t (boundaryEdges (paths.map fun p => p.1.turned p.2)) =
      resolved t (boundaryEdges (paths.map Prod.fst)) := by
  rw [resolved_eq, resolved_eq,
    extent_congr (boundaryEdges_turned_perm Edge.undirected_reverse paths)]
  generalize Tolerance.pointMatch (extent (boundaryEdges (paths.map Prod.fst))) = tolerance
  have hpairs := boundaryEdges_turned_perm
    (f := fun d => (d.undirected, edgeNormal t tolerance d))
    (fun d => by rw [d.undirected_reverse, edgeNormal_reverse]) paths
  have hfound := hpairs.filterMap fun p => p.2.map (p.1, ·)
  rw [hpairs.length_eq, hfound.length_eq, Multiset.coe_eq_coe.mpr hfound]

/-- **Normals point outward, whichever way the paths are walked.**  The normal of an edge is exactly the
vector that points outward from the third corner of the first triangle that matches both ends, and there
is none if no triangle does, if that corner is on the line of the edge, or if the edge has no length.  The
reverse of an edge has the same normal, or none; so a figure of which some paths are walked backward has
the same normals, or fails with the same error. -/
theorem edgeNormal_outward (t : Triangulation ℝ) :
    (∀ tolerance e n, edgeNormal t tolerance e = some n ↔
      e.start ≠ e.stop ∧ ∃ r, IsOpposite t e tolerance r ∧ IsOutward e r n) ∧
    (∀ tolerance e, edgeNormal t tolerance e.reverse = edgeNormal t tolerance e) ∧
    ∀ paths : List (Path ℝ × Bool),
      resolved t (boundaryEdges (paths.map fun p => p.1.turned p.2)) =
        resolved t (boundaryEdges (paths.map Prod.fst)) := by
  refine ⟨fun tolerance e n => ?_, edgeNormal_reverse t, resolved_turned t⟩
  rw [edgeNormal_eq_some_iff]
  simp only [opposite_eq_some_iff]

end Extrusion

end TriMesh
