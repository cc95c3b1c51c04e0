import TriMesh.Proofs.Buffers

/-! # Nodes of lattices

Lists of rows of equal length, and the lattices that are made of them.

* A list of rows is one list of quotients and remainders (`flatMap_range`), so the entry of a row
  and a column is found by arithmetic (`getElem?_rows`).
* The nodes of a lattice are its vertices in order (`getElem?_nodes`), and every triangle of the
  stitching joins nodes (`below_of_mem_triangles`).
* Lattices and cap fans are complete and textured. -/

namespace TriMesh

/-! ### Rows of equal length -/

theorem row_div_mod {width c : Nat} (hc : c < width) (r : Nat) :
    (r * width + c) / width = r ∧ (r * width + c) % width = c := by
  refine ⟨?_, ?_⟩
  · rw [Nat.mul_comm, Nat.mul_add_div (by omega), Nat.div_eq_of_lt hc, Nat.add_zero]
  · rw [Nat.mul_comm, Nat.mul_add_mod, Nat.mod_eq_of_lt hc]

theorem row_lt {rows width r c : Nat} (hr : r < rows) (hc : c < width) :
    r * width + c < rows * width := by
  have h : (r + 1) * width ≤ rows * width := Nat.mul_le_mul_right width hr
  rw [Nat.succ_mul] at h
  omega

section rows
variable {β : Type} (f : Nat → Nat → β)

/-- `rows` rows of `width` entries each, as one list. -/
theorem flatMap_range (rows width : Nat) :
    ((List.range rows).flatMap fun r => (List.range width).map (f r)) =
      (List.range (rows * width)).map fun i => f (i / width) (i % width) := by
  induction rows with
  | zero => simp
  | succ n ih =>
      rw [List.range_succ, List.flatMap_append, ih, Nat.succ_mul, List.range_add, List.map_append]
      simp only [List.flatMap_singleton, List.map_map]
      congr 1
      apply List.map_congr_left
      intro i hi
      obtain ⟨hd, hm⟩ := row_div_mod (List.mem_range.mp hi) n
      simp only [Function.comp_apply, hd, hm]

theorem length_rows (rows width : Nat) :
    ((List.range rows).flatMap fun r => (List.range width).map (f r)).length = rows * width := by
  rw [flatMap_range]
  simp

/-- The entry of a row and a column. -/
theorem getElem?_rows {rows width r c : Nat} (hr : r < rows) (hc : c < width) :
    ((List.range rows).flatMap fun r => (List.range width).map (f r))[r * width + c]? =
      some (f r c) := by
  obtain ⟨hd, hm⟩ := row_div_mod hc r
  rw [flatMap_range, List.getElem?_map, List.getElem?_range (row_lt hr hc)]
  simp only [Option.map_some, hd, hm]

theorem length_pairs {ι : Type} (g h : ι → β) (l : List ι) :
    (l.flatMap fun i => [g i, h i]).length = 2 * l.length := length_flatMap_of_length fun _ _ => rfl

/-- Pairs listed one after the other alternate between first and second entries. -/
theorem getElem?_pairs (g h : Nat → β) {rows r : Nat} (hr : r < rows) :
    ((List.range rows).flatMap fun r => [g r, h r])[2 * r]? = some (g r) ∧
      ((List.range rows).flatMap fun r => [g r, h r])[2 * r + 1]? = some (h r) := by
  have h0 := getElem?_rows (fun r c => if c = 0 then g r else h r) hr Nat.zero_lt_two
  have h1 := getElem?_rows (fun r c => if c = 0 then g r else h r) hr Nat.one_lt_two
  rw [Nat.mul_comm] at h0 h1
  exact ⟨h0, h1⟩

end rows

/-! ### Lattices -/

namespace Lattice

theorem length_nodes (rings segments : Nat) :
    (nodes rings segments).length = (rings + 1) * (segments + 1) :=
  length_rows _ _ _

theorem node_lt {rings segments ring seg : Nat} (hr : ring ≤ rings) (hs : seg ≤ segments) :
    node segments ring seg < (rings + 1) * (segments + 1) :=
  row_lt (Nat.lt_succ_of_le hr) (Nat.lt_succ_of_le hs)

/-- Nodes are numbered apart. -/
theorem node_eq_iff {segments ring seg ring' seg' : Nat} (hs : seg ≤ segments) (hs' : seg' ≤ segments) :
    node segments ring seg = node segments ring' seg' ↔ ring = ring' ∧ seg = seg' := by
  constructor
  · intro h
    obtain ⟨hd, hm⟩ := row_div_mod (Nat.lt_succ_of_le hs) ring
    obtain ⟨hd', hm'⟩ := row_div_mod (Nat.lt_succ_of_le hs') ring'
    unfold node at h
    rw [h] at hd hm
    exact ⟨hd.symm.trans hd', hm.symm.trans hm'⟩
  · rintro ⟨rfl, rfl⟩
    rfl

theorem getElem?_nodes {rings segments ring seg : Nat} (hr : ring ≤ rings) (hs : seg ≤ segments) :
    (nodes rings segments)[node segments ring seg]? = some (ring, seg) :=
  getElem?_rows (fun ring seg => (ring, seg)) (Nat.lt_succ_of_le hr) (Nat.lt_succ_of_le hs)

/-- The first triangle of a cell joins the two lower nodes with the upper left one, the second the
two upper nodes with the lower right one. -/
theorem cell_eq (segments ring seg : Nat) :
    cell segments ring seg =
      [⟨node segments (ring + 1) seg, node segments ring (seg + 1), node segments ring seg⟩,
       ⟨node segments (ring + 1) (seg + 1), node segments ring (seg + 1),
        node segments (ring + 1) seg⟩] := by
  simp only [cell, node, Nat.succ_mul, List.cons.injEq, Triangle.mk.injEq, and_true]
  omega

theorem below_of_mem_triangles {rings segments : Nat} :
    ∀ t ∈ triangles rings segments, t.Below ((rings + 1) * (segments + 1)) := by
  intro t ht
  obtain ⟨ring, hr, ht⟩ := List.mem_flatMap.mp ht
  obtain ⟨seg, hs, ht⟩ := List.mem_flatMap.mp ht
  rw [List.mem_range] at hr hs
  have h00 := node_lt (Nat.le_of_lt hr) (Nat.le_of_lt hs)
  have h01 := node_lt (Nat.le_of_lt hr) (Nat.succ_le_of_lt hs)
  have h10 := node_lt (Nat.succ_le_of_lt hr) (Nat.le_of_lt hs)
  have h11 := node_lt (Nat.succ_le_of_lt hr) (Nat.succ_le_of_lt hs)
  rw [cell_eq] at ht
  simp only [List.mem_cons, List.not_mem_nil, or_false] at ht
  rcases ht with rfl | rfl
  · exact ⟨h10, h01, h00⟩
  · exact ⟨h11, h01, h10⟩

variable {α : Type} [Scalar α]

theorem vertexCount_mesh (l : Lattice α) :
    l.mesh.vertexCount = (l.ringCount + 1) * (l.segmentCount + 1) := by
  simp [mesh, SubMesh.vertexCount, length_nodes]

theorem triangles_mesh (l : Lattice α) : l.mesh.triangles = triangles l.ringCount l.segmentCount :=
  SubMesh.triangles_of_flatten rfl

theorem mesh_complete (l : Lattice α) : l.mesh.Complete true := by
  refine ⟨SubMesh.indexed_of_flatten rfl ?_, ?_, ?_⟩
  · rw [vertexCount_mesh]
    exact below_of_mem_triangles
  · simp [mesh, SubMesh.normalCount, SubMesh.vertexCount]
  · simp [mesh, SubMesh.texcoordCount, SubMesh.vertexCount]

end Lattice

/-! ### Cap fans -/

namespace CapFan

variable {α : Type} [Scalar α]

theorem vertexCount_mesh (radius z : α) (segments : Nat) (up : Bool) :
    (mesh radius z segments up).vertexCount = clampSegments segments + 2 := by
  simp [mesh, SubMesh.vertexCount]

theorem triangles_mesh (radius z : α) (segments : Nat) (up : Bool) :
    (mesh radius z segments up).triangles = triangles (clampSegments segments) up :=
  SubMesh.triangles_of_flatten rfl

theorem mesh_complete (radius z : α) (segments : Nat) (up : Bool) :
    (mesh radius z segments up).Complete true := by
  refine ⟨SubMesh.indexed_of_flatten rfl ?_, ?_, ?_⟩
  · rw [vertexCount_mesh]
    intro t ht
    obtain ⟨seg, hs, rfl⟩ := List.mem_map.mp ht
    rw [List.mem_range] at hs
    cases up
    · simp only [Triangle.Below, Bool.false_eq_true, if_false]
      omega
    · simp only [Triangle.Below, if_true]
      omega
  · simp [mesh, SubMesh.normalCount, SubMesh.vertexCount]
  · simp [mesh, SubMesh.texcoordCount, SubMesh.vertexCount]

end CapFan

end TriMesh
