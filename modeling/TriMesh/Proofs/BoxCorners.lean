import TriMesh.Proofs.Reals
import TriMesh.Proofs.Surfaces
import TriMesh.Primitive.Box

/-! # The surface of a box

A box has twenty-four vertices, three at each of its eight corners.

* Over the numbers of the corners the twelve triangles are one fixed surface, and it is closed
  (`isClosed_numbered`).
* The facets of a box are this surface with every corner put in its place (`facets_eq`).  With positive
  sides different corners are in different places, so that the box is closed too. -/

namespace TriMesh

namespace BoxFace

/-- The number of the cube's corner behind each of the twenty-four vertices. -/
def numbers : Array ℕ := (all.flatMap fun face => face.1).toArray

/-- The surface of a box over the numbers of its corners. -/
def numbered : Surface ℕ := triangles.filterMap (Triangle.facet? numbers)

theorem isClosed_numbered : numbered.IsClosed := by
  unfold Surface.IsClosed
  decide +kernel

theorem lt_of_mem_numbered : ∀ f ∈ numbered, f.a < 8 ∧ f.b < 8 ∧ f.c < 8 := by
  decide +kernel

/-- The position of a corner of the box with the given half extents. -/
def place {α : Type} [Scalar α] (half : Vec3 α) (i : ℕ) : Vec3 α := (signVector (corner i)).mulEach half

/-- A submesh over the twenty-four corners has the numbered surface for its facets. -/
theorem facets_eq {α : Type} [Scalar α] {s : SubMesh α} {half : Vec3 α}
    (hv : s.vertices = ((directions : List (Vec3 α)).map (·.mulEach half)).toArray)
    (hi : s.indices = (Triangle.flatten triangles).toArray) :
    s.facets = numbered.map (Facet.map (place half)) := by
  have hplaces : s.vertices = numbers.map (place half) := by
    rw [hv, numbers, List.map_toArray]
    rfl
  unfold SubMesh.facets numbered
  rw [SubMesh.triangles_of_flatten (congrArg Array.toList hi), hplaces, List.map_filterMap]
  exact List.filterMap_congr fun t _ => Triangle.facet?_map _ _ t

/-- A sign is read as the same number. -/
theorem signScalar_eq_cast {s : ℤ} (h : s ∈ ({-1, 1} : Set ℤ)) : (signScalar s : ℝ) = (s : ℝ) := by
  rcases h with rfl | rfl
  · norm_num [signScalar]
  · norm_num [signScalar]

theorem corner_mem {i : ℕ} (h : i < 8) :
    (corner i).1 ∈ ({-1, 1} : Set ℤ) ∧ (corner i).2.1 ∈ ({-1, 1} : Set ℤ) ∧
      (corner i).2.2 ∈ ({-1, 1} : Set ℤ) := by
  interval_cases i <;> simp [corner]

theorem place_eq {half : Vec3 ℝ} {i : ℕ} (h : i < 8) :
    place half i = ⟨(corner i).1 * half.x, (corner i).2.1 * half.y, (corner i).2.2 * half.z⟩ := by
  obtain ⟨hx, hy, hz⟩ := corner_mem h
  simp only [place, signVector, Vec3.mulEach, signScalar_eq_cast hx, signScalar_eq_cast hy,
    signScalar_eq_cast hz]

theorem corner_injOn : Set.InjOn corner {i | i < 8} := by
  intro i (hi : i < 8) j (hj : j < 8) h
  have hcorners : ∀ i < 8, ∀ j < 8, corner i = corner j → i = j := by decide
  exact hcorners i hi j hj h

theorem place_injOn {half : Vec3 ℝ} (hx : 0 < half.x) (hy : 0 < half.y) (hz : 0 < half.z) :
    Set.InjOn (place half) {i | i < 8} := by
  intro i hi j hj h
  rw [place_eq hi, place_eq hj, Vec3.mk.injEq] at h
  obtain ⟨h1, h2, h3⟩ := h
  have h1' := Int.cast_injective (mul_right_cancel₀ hx.ne' h1)
  have h2' := Int.cast_injective (mul_right_cancel₀ hy.ne' h2)
  have h3' := Int.cast_injective (mul_right_cancel₀ hz.ne' h3)
  exact corner_injOn hi hj (Prod.ext h1' (Prod.ext h2' h3'))

theorem isClosed_placed {half : Vec3 ℝ} (hx : 0 < half.x) (hy : 0 < half.y) (hz : 0 < half.z) :
    Surface.IsClosed (numbered.map (Facet.map (place half))) :=
  isClosed_numbered.map lt_of_mem_numbered (place_injOn hx hy hz)

end BoxFace

theorem Box.facets_mesh {α : Type} [Scalar α] (b : Box α) :
    b.mesh.facets =
      BoxFace.numbered.map (Facet.map (BoxFace.place (b.sides * (Scalar.half : α)))) :=
  BoxFace.facets_eq rfl rfl

theorem Camera.facets_mesh {α : Type} [Scalar α] (c : Camera α) :
    c.mesh.facets = BoxFace.numbered.map (Facet.map (BoxFace.place (Vec3.splat c.scale))) :=
  BoxFace.facets_eq rfl rfl

end TriMesh
