import TriMesh.Proofs.ExtrusionFaces
import TriMesh.Proofs.GridTilings

/-! # The two layers of a plane

Where the vertices of a plane lie and which way its triangles face, with exact scalars.

* Any vector but zero has a unit vector, and any unit vector has another one across it
  (`tryNormalize_eq`, `dot_anyOrthonormal`), so the rotation of a plane takes the axes to a right-handed
  frame (`cross_cross_self`).
* All vertices of a layer are at one height along the normal (`dot_position`).
* Both triangles of a cell face along the normal by the area of the cell if their first row is the upper
  one, and against it otherwise (`faceVector_of_mem_cellFacets`).  On the front it always is, on the back
  never (`cellsFace_front`, `cellsFace_back`).
* So all triangles of a layer face one way, and together they are as large as the plane (`hasLayer_layer`);
  they stay so with the other layer before or behind them. -/

namespace TriMesh

/-! ### Frames -/

namespace Vec3

variable {v y z : Vec3 ℝ}

theorem dot_self_pos (hv : v ≠ 0) : 0 < v.dot v := by
  rw [dot_eq]
  by_contra hle
  have hx := mul_self_nonneg v.x
  have hy := mul_self_nonneg v.y
  have hz := mul_self_nonneg v.z
  refine hv (Vec3.ext ?_ ?_ ?_)
  · exact mul_self_eq_zero.mp (by linarith)
  · exact mul_self_eq_zero.mp (by linarith)
  · exact mul_self_eq_zero.mp (by linarith)

theorem length_pos (hv : v ≠ 0) : 0 < v.length := Real.sqrt_pos.mpr (dot_self_pos hv)

theorem tryNormalize_eq (hv : v ≠ 0) : v.tryNormalize = some v.normalize :=
  if_pos ⟨rfl, one_div_pos.mpr (length_pos hv)⟩

theorem dot_self_normalize (hv : v ≠ 0) : v.normalize.dot v.normalize = 1 := by
  have hpos := length_pos hv
  have hsquare : v.length ^ 2 = v.dot v := Real.sq_sqrt (dot_self_pos hv).le
  rw [dot_eq] at hsquare
  simp only [normalize, dot_eq, mul_x, mul_y, mul_z]
  field_simp
  linarith

/-- A vector across a unit vector is made with a sign and a reciprocal. -/
theorem exists_anyOrthonormal_eq (v : Vec3 ℝ) :
    ∃ s a : ℝ, s * s = 1 ∧ a * (s + v.z) = -1 ∧
      v.anyOrthonormal = ⟨v.x * v.y * a, s + v.y * v.y * a, -v.y⟩ := by
  refine ⟨Scalar.unitSign v.z, -1 / (Scalar.unitSign v.z + v.z), ?_, div_mul_cancel₀ _ ?_, rfl⟩
  · rw [Scalar.real_unitSign]
    split <;> ring
  -- the sign is that of the third component, so nothing cancels
  · rw [Scalar.real_unitSign]
    split <;> linarith

theorem dot_anyOrthonormal (h : v.dot v = 1) : v.dot v.anyOrthonormal = 0 := by
  obtain ⟨s, a, hs, ha, heq⟩ := exists_anyOrthonormal_eq v
  rw [dot_eq] at h
  rw [heq, dot_eq]
  linear_combination v.y * a * h - v.y * a * hs + v.y * (s - v.z) * ha

theorem dot_self_anyOrthonormal (h : v.dot v = 1) : v.anyOrthonormal.dot v.anyOrthonormal = 1 := by
  obtain ⟨s, a, hs, ha, heq⟩ := exists_anyOrthonormal_eq v
  rw [dot_eq] at h
  rw [heq, dot_eq]
  linear_combination v.y ^ 2 * a ^ 2 * h + (1 - v.y ^ 2 * a ^ 2) * hs +
    (v.y ^ 2 * a * (s - v.z) + v.y ^ 2) * ha

/-- Two unit vectors across each other and their product are a frame. -/
theorem cross_cross_self (hy : y.dot y = 1) (hyz : z.dot y = 0) : (y.cross z).cross y = z := by
  rw [dot_eq] at hy hyz
  refine Vec3.ext ?_ ?_ ?_
  · simp only [cross_x, cross_y, cross_z]
    linear_combination z.x * hy - y.x * hyz
  · simp only [cross_x, cross_y, cross_z]
    linear_combination z.y * hy - y.y * hyz
  · simp only [cross_x, cross_y, cross_z]
    linear_combination z.z * hy - y.z * hyz

theorem mul_scalar_mul (a b : ℝ) : v * a * b = v * (a * b) :=
  Vec3.ext (mul_assoc _ _ _) (mul_assoc _ _ _) (mul_assoc _ _ _)

theorem mul_scalar_one (v : Vec3 ℝ) : v * (1 : ℝ) = v :=
  Vec3.ext (mul_one _) (mul_one _) (mul_one _)

theorem mul_scalar_neg_one (v : Vec3 ℝ) : v * (-1 : ℝ) = -v :=
  Vec3.ext (mul_neg_one _) (mul_neg_one _) (mul_neg_one _)

theorem neg_dot (a b : Vec3 ℝ) : (-a).dot b = -a.dot b := by
  simp only [dot_eq, neg_x, neg_y, neg_z]
  ring

theorem dot_neg (a b : Vec3 ℝ) : a.dot (-b) = -a.dot b := by
  simp only [dot_eq, neg_x, neg_y, neg_z]
  ring

theorem dot_neg_neg (a b : Vec3 ℝ) : (-a).dot (-b) = a.dot b := by
  rw [neg_dot, dot_neg, neg_neg]

/-- The part of a vector along the third axis of a frame. -/
theorem dot_frame (hz : z.dot z = 1) (hzy : z.dot y = 0) (a b c d : ℝ) :
    z.dot (y.cross z * a + y * b + z * c + z * d) = c + d := by
  rw [dot_eq] at hz hzy ⊢
  simp only [add_x, add_y, add_z, mul_x, mul_y, mul_z, cross_x, cross_y, cross_z]
  linear_combination (c + d) * hz + b * hzy

theorem length_mul_of_unit (hz : z.dot z = 1) {c : ℝ} (hc : 0 ≤ c) : (z * c).length = c := by
  have hdot : (z * c).dot (z * c) = c ^ 2 := by
    rw [dot_eq] at hz ⊢
    simp only [mul_x, mul_y, mul_z]
    linear_combination c ^ 2 * hz
  rw [length, hdot]
  exact Real.sqrt_sq hc

/-- A unit vector made longer has that direction. -/
theorem normalizeOrZero_mul_of_unit (hz : z.dot z = 1) {c : ℝ} (hc : 0 < c) : (z * c).normalizeOrZero = z := by
  have hlength : (z * c).length = c := length_mul_of_unit hz hc.le
  have hunit : (z * c).tryNormalize = some (z * c).normalize := by
    refine if_pos ⟨rfl, ?_⟩
    rw [hlength]
    exact one_div_pos.mpr hc
  rw [normalizeOrZero, hunit, Option.getD_some, normalize, hlength, mul_scalar_mul, mul_one_div_cancel hc.ne',
    mul_scalar_one]

end Vec3

/-- The area of a triangle in space. -/
def Facet.spaceArea {α : Type} [Scalar α] (f : Facet (Vec3 α)) : α :=
  f.faceVector.length / Scalar.two

namespace Grid

/-- Both triangles of a cell of a rectangular grid in space face across it, by the area of the cell. -/
theorem faceVector_of_mem_cellFacets {place : ℕ → ℕ → Vec3 ℝ} {x y o : Vec3 ℝ} {width height : ℝ}
    (hplace : ∀ row col, place row col = x * ((col : ℝ) * width) + y * ((row : ℝ) * height) + o)
    {far near col : ℕ} {f : Facet (Vec3 ℝ)} (hf : f ∈ cellFacets place far near col) :
    f.faceVector = x.cross y * (((far : ℝ) - (near : ℝ)) * (width * height)) := by
  simp only [cellFacets, onFar, onNear, hplace, List.mem_cons, List.not_mem_nil, or_false] at hf
  rcases hf with rfl | rfl <;> refine Vec3.ext ?_ ?_ ?_ <;>
    simp only [Facet.faceVector, SubMesh.faceVector, Vec3.cross_x, Vec3.cross_y, Vec3.cross_z,
      Vec3.sub_x, Vec3.sub_y, Vec3.sub_z, Vec3.add_x, Vec3.add_y, Vec3.add_z, Vec3.mul_x, Vec3.mul_y,
      Vec3.mul_z, Nat.cast_add, Nat.cast_one] <;>
    ring

theorem mem_front {width height : ℕ} {t : Triangle} (ht : t ∈ front (width + 1) (height + 1)) :
    ∃ row < height, ∃ col < width, t ∈ cell (width + 1) (row + 1) row col := by
  obtain ⟨row, hrow, ht⟩ := List.mem_flatMap.mp ht
  obtain ⟨col, hcol, ht⟩ := List.mem_flatMap.mp ht
  exact ⟨row, List.mem_range.mp hrow, col, List.mem_range.mp hcol, ht⟩

theorem mem_back {width height : ℕ} {t : Triangle} (ht : t ∈ back (width + 1) (height + 1)) :
    ∃ row < height, ∃ col < width, t ∈ cell (width + 1) row (row + 1) col := by
  obtain ⟨row, hrow, ht⟩ := List.mem_flatMap.mp ht
  obtain ⟨col, hcol, ht⟩ := List.mem_flatMap.mp ht
  exact ⟨row, List.mem_range.mp (List.mem_reverse.mp hrow), col, List.mem_range.mp hcol, ht⟩

theorem length_row (width far near columns : ℕ) :
    ((List.range columns).flatMap fun col => cell width far near col).length = 2 * columns := by
  have hcell : ∀ col ∈ List.range columns, (cell width far near col).length = 2 := fun _ _ => rfl
  rw [length_flatMap_of_length hcell, List.length_range]

theorem length_front (width height : ℕ) :
    (front (width + 1) (height + 1)).length = 2 * width * height := by
  rw [front, length_flatMap_of_length fun row _ => length_row _ _ _ _, List.length_range]
  rfl

theorem length_back (width height : ℕ) :
    (back (width + 1) (height + 1)).length = 2 * width * height := by
  rw [back, length_flatMap_of_length fun row _ => length_row _ _ _ _, List.length_reverse,
    List.length_range]
  rfl

end Grid

namespace Plane

/-! ### Layers by rows and columns -/

section scalar
variable {α : Type} [Scalar α] (p : Plane α) (index : ℕ) (normal : Vec3 α) (faces : GridFaces)

/-- The number of triangles in a layer. -/
def layerTriangles : ℕ := 2 * p.columns * p.rows

/-- The number of vertices in a layer. -/
def layerVertices : ℕ := (p.rows + 1) * (p.columns + 1)

/-- The extent of a cell along both axes of the plane. -/
def spacing : Vec2 α := p.size.divEach p.cells

omit [Scalar α] in
theorem columns_pos : 0 < p.columns := lt_max_of_lt_right Nat.one_pos

omit [Scalar α] in
theorem rows_pos : 0 < p.rows := lt_max_of_lt_right Nat.one_pos

theorem vertexCount_layer : (p.layer index normal faces).vertexCount = p.layerVertices := by
  simp [layer, SubMesh.vertexCount, length_nodes, layerVertices]

theorem triangles_layer :
    (p.layer index normal faces).triangles = Grid.triangles faces (p.columns + 1) (p.rows + 1) :=
  SubMesh.triangles_of_flatten rfl

theorem getElem?_vertices_layer {row col : ℕ} (hrow : row ≤ p.rows) (hcol : col ≤ p.columns) :
    (p.layer index normal faces).vertices[Grid.vertex (p.columns + 1) row col]? =
      some (p.position index col row) := by
  have hnode : p.nodes[Grid.vertex (p.columns + 1) row col]? = some (col, row) :=
    getElem?_rows (fun row col => (col, row)) (Nat.lt_succ_of_le hrow) (Nat.lt_succ_of_le hcol)
  simp only [layer, Array.getElem?_map, List.getElem?_toArray, hnode, Option.map_some]

/-- The triangles of a cell join the places of its corners. -/
theorem exists_facet?_layer {far near col : ℕ} (hfar : far ≤ p.rows) (hnear : near ≤ p.rows)
    (hcol : col < p.columns) {t : Triangle} (ht : t ∈ Grid.cell (p.columns + 1) far near col) :
    ∃ f ∈ Grid.cellFacets (fun row col => p.position index col row) far near col,
      t.facet? (p.layer index normal faces).vertices = some f := by
  have hvertex {row col : ℕ} (hrow : row ≤ p.rows) (hcol : col ≤ p.columns) :=
    p.getElem?_vertices_layer index normal faces hrow hcol
  simp only [Grid.cell, List.mem_cons, List.not_mem_nil, or_false] at ht
  rcases ht with rfl | rfl
  · exact ⟨_, List.mem_cons_self,
      Triangle.facet?_eq (hvertex hfar hcol.le) (hvertex hnear hcol.le) (hvertex hfar hcol)⟩
  · exact ⟨_, List.mem_cons_of_mem _ List.mem_cons_self,
      Triangle.facet?_eq (hvertex hfar hcol) (hvertex hnear hcol.le) (hvertex hnear hcol)⟩

theorem hasFace_layer {k : ℕ} {t : Triangle} {f : Facet (Vec3 α)}
    (ht : (p.layer index normal faces).triangles[k]? = some t)
    (hf : t.facet? (p.layer index normal faces).vertices = some f) :
    (p.layer index normal faces).HasFace k f normal := by
  have hbelow := Triangle.below_of_facet? hf
  have hsize : (p.layer index normal faces).vertices.size = p.nodes.toArray.size := Array.size_map
  rw [hsize] at hbelow
  exact ⟨t, ht, hf, Triangle.facet?_replicate hbelow normal⟩

end scalar

/-! ### Directions -/

section directions
variable (p : Plane ℝ)

/-- The vertices of a layer are a rectangular grid in space. -/
theorem position_eq (index row col : ℕ) :
    p.position index col row =
      p.axis.anyOrthonormal.cross p.axis * ((col : ℝ) * p.spacing.x) +
        p.axis.anyOrthonormal * ((row : ℝ) * p.spacing.y) + p.position index 0 0 := by
  refine Vec3.ext ?_ ?_ ?_ <;>
    simp only [position, rotation, Mat3.mulVec, spacing, Vec3.add_x, Vec3.add_y, Vec3.add_z, Vec3.mul_x,
      Vec3.mul_y, Vec3.mul_z, Nat.cast_zero] <;>
    ring

variable {p}

theorem spacing_pos (hx : 0 < p.size.x) (hy : 0 < p.size.y) : 0 < p.spacing.x * p.spacing.y :=
  mul_pos (div_pos hx (Nat.cast_pos.mpr p.columns_pos)) (div_pos hy (Nat.cast_pos.mpr p.rows_pos))

section frame
variable (hn : p.normal ≠ 0)
include hn

theorem axis_eq : p.axis = p.normal.normalize := by
  rw [axis, Vec3.tryNormalize_eq hn, Option.getD_some]

theorem dot_self_axis : p.axis.dot p.axis = 1 := by
  rw [axis_eq hn]
  exact Vec3.dot_self_normalize hn

/-- Each layer is at one height along the normal. -/
theorem dot_position (index row col : ℕ) :
    p.axis.dot (p.position index col row) = p.offset - index * thickness := by
  have hz := dot_self_axis hn
  have hheight := Vec3.dot_frame hz (Vec3.dot_anyOrthonormal hz)
    ((col : ℝ) * p.spacing.x - (p.size * (Scalar.half : ℝ)).x)
    ((row : ℝ) * p.spacing.y - (p.size * (Scalar.half : ℝ)).y) (-(index : ℝ) * thickness) p.offset
  calc p.axis.dot (p.position index col row) = -(index : ℝ) * thickness + p.offset := hheight
    _ = p.offset - index * thickness := by ring

/-- The triangles of a cell face along the normal if its first row is the upper one. -/
theorem faceVector_of_mem_cellFacets {index far near col : ℕ} {f : Facet (Vec3 ℝ)}
    (hf : f ∈ Grid.cellFacets (fun row col => p.position index col row) far near col) :
    f.faceVector =
      p.axis * (((far : ℝ) - (near : ℝ)) * (p.spacing.x * p.spacing.y)) := by
  have hz := dot_self_axis hn
  have hcross := Vec3.cross_cross_self (Vec3.dot_self_anyOrthonormal hz) (Vec3.dot_anyOrthonormal hz)
  rw [Grid.faceVector_of_mem_cellFacets (fun row col => p.position_eq index row col) hf, hcross]

end frame

/-- Every triangle of a side is one of a cell whose rows come in the order in which it faces that way. -/
def CellsFace (p : Plane ℝ) (faces : GridFaces) (facing : Vec3 ℝ) : Prop :=
  ∀ t ∈ Grid.triangles faces (p.columns + 1) (p.rows + 1),
    ∃ far ≤ p.rows, ∃ near ≤ p.rows, ∃ col < p.columns, t ∈ Grid.cell (p.columns + 1) far near col ∧
      p.axis * ((far : ℝ) - (near : ℝ)) = facing

theorem cellsFace_front (p : Plane ℝ) : p.CellsFace .front p.axis := by
  intro t ht
  obtain ⟨row, hrow, col, hcol, hcell⟩ := Grid.mem_front ht
  refine ⟨row + 1, hrow, row, hrow.le, col, hcol, hcell, ?_⟩
  rw [Nat.cast_succ, add_sub_cancel_left, Vec3.mul_scalar_one]

theorem cellsFace_back (p : Plane ℝ) : p.CellsFace .back (-p.axis) := by
  intro t ht
  obtain ⟨row, hrow, col, hcol, hcell⟩ := Grid.mem_back ht
  refine ⟨row, hrow.le, row + 1, hrow, col, hcol, hcell, ?_⟩
  rw [Nat.cast_succ, sub_add_cancel_left, Vec3.mul_scalar_neg_one]

theorem CellsFace.exists_hasFace {faces : GridFaces} {facing : Vec3 ℝ} (h : p.CellsFace faces facing)
    (hn : p.normal ≠ 0) (index : ℕ) {k : ℕ}
    (hk : k < (Grid.triangles faces (p.columns + 1) (p.rows + 1)).length) :
    ∃ f, (p.layer index facing faces).HasFace k f facing ∧
      f.faceVector = facing * (p.spacing.x * p.spacing.y) := by
  obtain ⟨far, hfar, near, hnear, col, hcol, hcell, hfacing⟩ := h _ (List.getElem_mem hk)
  obtain ⟨f, hf, hfacet⟩ := p.exists_facet?_layer index facing faces hfar hnear hcol hcell
  refine ⟨f, p.hasFace_layer index facing faces ?_ hfacet, ?_⟩
  · rw [triangles_layer, List.getElem?_eq_getElem hk]
  · rw [faceVector_of_mem_cellFacets hn hf, ← hfacing, Vec3.mul_scalar_mul]

end directions

/-! ### Layers -/

/-- A submesh has a layer of a plane from the vertex and the triangle with these numbers onward, at some
height along the normal. -/
structure HasLayer (p : Plane ℝ) (s : SubMesh ℝ) (vertex triangle : ℕ) (height : ℝ)
    (facing : Vec3 ℝ) : Prop where
  /-- Its vertices are at that height. -/
  flat : ∀ i < p.layerVertices,
    ∃ v, s.vertices[vertex + i]? = some v ∧ p.normal.normalize.dot v = height
  /-- Its triangles face one way, as the normals at their corners do, and are as large as the plane. -/
  faces : ∃ f : ℕ → Facet (Vec3 ℝ),
    (∀ k < p.layerTriangles, s.HasFace (triangle + k) (f k) facing ∧
      ∃ c : ℝ, 0 < c ∧ (f k).faceVector = facing * c) ∧
    ∑ k ∈ Finset.range p.layerTriangles, (f k).spaceArea = p.size.x * p.size.y

namespace HasLayer

variable {p : Plane ℝ} {s t : SubMesh ℝ} {vertex triangle : ℕ} {height : ℝ} {facing : Vec3 ℝ}

theorem append_left (h : p.HasLayer s vertex triangle height facing) (hs : s.Indexed) (t : SubMesh ℝ) :
    p.HasLayer (s ++ t) vertex triangle height facing := by
  obtain ⟨f, hf, harea⟩ := h.faces
  refine ⟨fun i hi => ?_, f, fun k hk => ?_, harea⟩
  · obtain ⟨v, hv, hheight⟩ := h.flat i hi
    refine ⟨v, ?_, hheight⟩
    exact (Array.getElem?_append_left (Array.getElem?_eq_some_iff.mp hv).1).trans hv
  · obtain ⟨hface, hvector⟩ := hf k hk
    exact ⟨hface.append_left hs t, hvector⟩

theorem append_right {textured : Bool} (h : p.HasLayer t vertex triangle height facing)
    (hs : s.Complete textured) :
    p.HasLayer (s ++ t) (s.vertexCount + vertex) (s.triangles.length + triangle) height facing := by
  obtain ⟨f, hf, harea⟩ := h.faces
  refine ⟨fun i hi => ?_, f, fun k hk => ?_, harea⟩
  · obtain ⟨v, hv, hheight⟩ := h.flat i hi
    refine ⟨v, ?_, hheight⟩
    rw [Nat.add_assoc]
    refine (Array.getElem?_append_right (Nat.le_add_right _ _)).trans ?_
    rw [Nat.add_sub_cancel_left, hv]
  · obtain ⟨hface, hvector⟩ := hf k hk
    rw [Nat.add_assoc]
    exact ⟨hface.append_right hs, hvector⟩

end HasLayer

variable {p : Plane ℝ}

/-- Both triangles of a cell are half as large as the cell. -/
theorem spaceArea_eq {facing : Vec3 ℝ} (hunit : facing.dot facing = 1) {f : Facet (Vec3 ℝ)} {c : ℝ}
    (hc : 0 ≤ c) (hf : f.faceVector = facing * c) : f.spaceArea = c / 2 := by
  rw [Facet.spaceArea, hf, Vec3.length_mul_of_unit hunit hc, Scalar.real_two]

/-- The cells of a layer are together as large as the plane. -/
theorem sum_cells (p : Plane ℝ) :
    ∑ _k ∈ Finset.range p.layerTriangles, p.spacing.x * p.spacing.y / 2 = p.size.x * p.size.y := by
  have hcolumns : (p.columns : ℝ) ≠ 0 := Nat.cast_ne_zero.mpr p.columns_pos.ne'
  have hrows : (p.rows : ℝ) ≠ 0 := Nat.cast_ne_zero.mpr p.rows_pos.ne'
  rw [Finset.sum_const, Finset.card_range, nsmul_eq_mul, layerTriangles]
  simp only [spacing, Vec2.divEach, cells, Nat.cast_mul, Nat.cast_ofNat]
  field_simp

/-- A grid all of whose cells face one way is a layer. -/
theorem hasLayer_layer (hn : p.normal ≠ 0) (hx : 0 < p.size.x) (hy : 0 < p.size.y) (index : ℕ)
    {faces : GridFaces} {facing : Vec3 ℝ} (h : p.CellsFace faces facing)
    (hunit : facing.dot facing = 1)
    (hcount : (Grid.triangles faces (p.columns + 1) (p.rows + 1)).length = p.layerTriangles) :
    p.HasLayer (p.layer index facing faces) 0 0 (p.offset - index * thickness) facing := by
  have harea := spacing_pos hx hy
  constructor
  case flat =>
    intro i hi
    have hnode : i < p.nodes.length := hi.trans_eq p.length_nodes.symm
    refine ⟨p.position index p.nodes[i].1 p.nodes[i].2, ?_, ?_⟩
    · simp only [layer, Nat.zero_add, Array.getElem?_map, List.getElem?_toArray,
        List.getElem?_eq_getElem hnode, Option.map_some]
    · rw [← axis_eq hn]
      exact dot_position hn index _ _
  case faces =>
    have hface : ∀ k < p.layerTriangles, ∃ f, (p.layer index facing faces).HasFace k f facing ∧
        f.faceVector = facing * (p.spacing.x * p.spacing.y) :=
      fun k hk => h.exists_hasFace hn index (hk.trans_eq hcount.symm)
    have : Nonempty (Facet (Vec3 ℝ)) := ⟨⟨0, 0, 0⟩⟩
    choose! f hf using hface
    refine ⟨f, fun k hk => ?_, ?_⟩
    · rw [Nat.zero_add]
      exact ⟨(hf k hk).1, _, harea, (hf k hk).2⟩
    · rw [← sum_cells p]
      refine Finset.sum_congr rfl fun k hk => ?_
      exact spaceArea_eq hunit harea.le (hf k (Finset.mem_range.mp hk)).2

/-- **The layers of a plane.**  For any normal with a direction and any number of segments, the front lies
at the offset along the unit normal and faces along it, the back lies behind it by the thickness and faces
the other way, and the triangles of each are together as large as the plane. -/
theorem mesh_layers (hn : p.normal ≠ 0) (hx : 0 < p.size.x) (hy : 0 < p.size.y) :
    p.mesh.vertexCount = 2 * p.layerVertices ∧
      p.mesh.triangles.length = 2 * p.layerTriangles ∧
      p.HasLayer p.mesh 0 0 p.offset p.normal.normalize ∧
      p.HasLayer p.mesh p.layerVertices p.layerTriangles (p.offset - thickness)
        (-p.normal.normalize) := by
  have hunit := dot_self_axis hn
  have hunit' : (-p.axis).dot (-p.axis) = 1 := (Vec3.dot_neg_neg _ _).trans hunit
  have hcount := Grid.length_front p.columns p.rows
  have hcount' := Grid.length_back p.columns p.rows
  have hfront := hasLayer_layer hn hx hy 0 p.cellsFace_front hunit hcount
  have hback := hasLayer_layer hn hx hy 1 p.cellsFace_back hunit' hcount'
  rw [Nat.cast_zero, zero_mul, sub_zero] at hfront
  rw [Nat.cast_one, one_mul] at hback
  have hcomplete := p.layer_complete 0 p.axis .front
  have hvertices := p.vertexCount_layer 0 p.axis .front
  have htriangles : (p.layer 0 p.axis .front).triangles.length = p.layerTriangles :=
    (congrArg List.length (p.triangles_layer 0 p.axis .front)).trans hcount
  have htriangles' : (p.layer 1 (-p.axis) .back).triangles.length = p.layerTriangles :=
    (congrArg List.length (p.triangles_layer 1 (-p.axis) .back)).trans hcount'
  rw [← axis_eq hn, mesh]
  refine ⟨?_, ?_, hfront.append_left hcomplete.toIndexed _, ?_⟩
  · rw [SubMesh.vertexCount_append, hvertices, vertexCount_layer, two_mul]
  · rw [SubMesh.length_triangles_append hcomplete.toIndexed, htriangles, htriangles', two_mul]
  · have hbehind := hback.append_right hcomplete
    rwa [hvertices, htriangles] at hbehind

/-- A plane below the origin, seen from above at a slant, with a long normal and no segments one way. -/
theorem mesh_layers_slanted :
    let p : Plane ℝ := ⟨⟨0, 3, 4⟩, -1, ⟨2, 1 / 2⟩, (0, 3), ⟨1, 1⟩⟩
    p.normal ≠ 0 ∧ 0 < p.size.x ∧ 0 < p.size.y ∧ p.columns = 1 ∧ p.rows = 3 ∧
      p.HasLayer p.mesh 0 0 (-1) p.normal.normalize ∧
      p.HasLayer p.mesh 8 6 (-1 - thickness) (-p.normal.normalize) := by
  intro p
  have hn : p.normal ≠ 0 := fun h => by
    have hy : (3 : ℝ) = 0 := congrArg Vec3.y h
    norm_num at hy
  have hx : (0 : ℝ) < 2 := by norm_num
  have hy : (0 : ℝ) < 1 / 2 := by norm_num
  obtain ⟨_, _, hfront, hback⟩ := mesh_layers hn hx hy
  exact ⟨hn, hx, hy, rfl, rfl, hfront, hback⟩

end Plane
end TriMesh
