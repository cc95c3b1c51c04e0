import TriMesh.Proofs.LinearMaps
import TriMesh.SubMesh.Transform

/-! # Normals under maps of space

What an affine map does to the triangles of a submesh and to the normals at their corners.

* The facets of the image are the images of the facets, and their edges are those of the facets under the
  linear part (`SubMesh.facet?_transform`).
* A vector across a facet is taken to a unit vector across its image (`Mat4.normalImage`,
  `Facet.IsAcross.map`, `Mat4.length_normalImage`).
* The face of the image is the image of the face, by the determinant longer, so that a normal which lay
  along the face does so afterwards if the map keeps orientation, and lies against it otherwise
  (`SubMesh.transform_carries_normals`). -/

namespace TriMesh

namespace Facet

variable {α : Type} [Scalar α]

/-- The vector is perpendicular to both edges from the first corner, and so to the plane of the facet. -/
def IsAcross (f : Facet (Vec3 α)) (n : Vec3 α) : Prop := n.dot (f.b - f.a) = 0 ∧ n.dot (f.c - f.a) = 0

/-- The vector is a positive multiple of the face. -/
def FacesAlong (f : Facet (Vec3 α)) (n : Vec3 α) : Prop := ∃ c : α, 0 < c ∧ n = f.faceVector * c

/-- The vector is a negative multiple of the face. -/
def FacesAgainst (f : Facet (Vec3 α)) (n : Vec3 α) : Prop := ∃ c : α, c < 0 ∧ n = f.faceVector * c

end Facet

namespace Mat4

/-- The image of a normal: the direction of its image under the inverse transpose. -/
def normalImage {α : Type} [Scalar α] (m : Mat4 α) (n : Vec3 α) : Vec3 α :=
  (m.inverse.transpose.mulDirection n).normalizeOrZero

variable {m : Mat4 ℝ} (h : m.IsAffine) (hdet : m.linear.det ≠ 0) {f : Facet (Vec3 ℝ)} {n : Vec3 ℝ}
include h

/-- Normals are moved by the cofactors, up to a factor that has the sign of the determinant. -/
theorem exists_normalImage_eq (n : Vec3 ℝ) :
    ∃ c : ℝ, 0 < c ∧ m.normalImage n = m.linear.cofactors.mulVec n * (1 / m.linear.det * c) := by
  obtain ⟨c, hc, heq⟩ := Vec3.exists_normalizeOrZero_eq (m.inverse.transpose.mulDirection n)
  refine ⟨c, hc, ?_⟩
  rw [normalImage, heq, h.inverse_transpose, Vec3.mul_scalar_mul]

/-- A normal meets the image of an edge as it met the edge. -/
theorem exists_normalImage_dot (n : Vec3 ℝ) :
    ∃ c : ℝ, ∀ v, (m.normalImage n).dot (m.linear.mulVec v) = c * n.dot v := by
  obtain ⟨c, -, heq⟩ := exists_normalImage_eq h n
  refine ⟨1 / m.linear.det * c * m.linear.det, fun v => ?_⟩
  rw [heq, Vec3.mul_dot, Mat3.cofactors_dot_mulVec]
  ring

include hdet in
theorem length_normalImage (hn : n ≠ 0) : (m.normalImage n).length = 1 := by
  refine Vec3.length_normalizeOrZero fun hzero => ?_
  -- the image of a normal still meets the image of the same vector
  have hmeet : (m.inverse.transpose.mulDirection n).dot (m.linear.mulVec n) = n.dot n := by
    rw [h.inverse_transpose, Vec3.mul_dot, Mat3.cofactors_dot_mulVec, one_div, inv_mul_cancel_left₀ hdet]
  rw [hzero, Vec3.zero_dot] at hmeet
  exact (Vec3.dot_self_pos hn).ne hmeet

end Mat4

namespace Facet

variable {m : Mat4 ℝ} {f : Facet (Vec3 ℝ)} {n : Vec3 ℝ}

theorem faceVector_map (m : Mat4 ℝ) (f : Facet (Vec3 ℝ)) :
    (f.map m.mulPoint).faceVector = m.linear.cofactors.mulVec f.faceVector := by
  simp only [faceVector, SubMesh.faceVector, map, Mat4.mulPoint_sub, Mat3.cross_mulVec]

theorem IsAcross.map (hn : f.IsAcross n) (h : m.IsAffine) : (f.map m.mulPoint).IsAcross (m.normalImage n) := by
  obtain ⟨c, hc⟩ := Mat4.exists_normalImage_dot h n
  simp only [IsAcross, Facet.map, Mat4.mulPoint_sub, hc, hn.1, hn.2, mul_zero, and_self]

/-- The image of a normal along the face lies along the image of the face, or against it. -/
theorem FacesAlong.map (hn : f.FacesAlong n) (h : m.IsAffine) :
    (0 < m.linear.det → (f.map m.mulPoint).FacesAlong (m.normalImage n)) ∧
      (m.linear.det < 0 → (f.map m.mulPoint).FacesAgainst (m.normalImage n)) := by
  obtain ⟨k, hk, rfl⟩ := hn
  obtain ⟨c, hc, heq⟩ := Mat4.exists_normalImage_eq h (f.faceVector * k)
  have hface : m.normalImage (f.faceVector * k) =
      (f.map m.mulPoint).faceVector * (k * (1 / m.linear.det * c)) := by
    rw [heq, Mat3.mulVec_mul, faceVector_map, Vec3.mul_scalar_mul]
  refine ⟨fun hpos => ⟨_, ?_, hface⟩, fun hneg => ⟨_, ?_, hface⟩⟩
  · positivity
  · exact mul_neg_of_pos_of_neg hk (mul_neg_of_neg_of_pos (one_div_neg.mpr hneg) hc)

end Facet

namespace SubMesh

section transform
variable {α : Type} [Scalar α] (s : SubMesh α) (m : Mat4 α)

theorem triangles_transform : (s.transform m).triangles = s.triangles := rfl

theorem facet?_transform (t : Triangle) :
    t.facet? (s.transform m).vertices = (t.facet? s.vertices).map (Facet.map m.mulPoint) :=
  Triangle.facet?_map m.mulPoint s.vertices t

theorem getElem?_normals_transform (i : ℕ) :
    (s.transform m).normals[i]? = s.normals[i]?.map m.normalImage := Array.getElem?_map

end transform

/-- Normals across triangles stay across them from one submesh to the other, with length 1: wherever a
triangle has its corners and a normal across it at one of them, the same triangle of the other submesh has a
unit normal across it there.  A normal along the face goes to one along the face if `det` is positive, and
to one against it if `det` is negative. -/
def CarriesNormals (s t : SubMesh ℝ) (det : ℝ) : Prop :=
  t.triangles = s.triangles ∧
    ∀ k ∈ s.triangles, ∀ f, k.facet? s.vertices = some f → ∀ i ∈ k.toList, ∀ n, s.normals[i]? = some n →
      f.IsAcross n → n ≠ 0 →
        ∃ g n', k.facet? t.vertices = some g ∧ t.normals[i]? = some n' ∧ n'.length = 1 ∧ g.IsAcross n' ∧
          (f.FacesAlong n → (0 < det → g.FacesAlong n') ∧ (det < 0 → g.FacesAgainst n'))

theorem carriesNormals_transform (s : SubMesh ℝ) {m : Mat4 ℝ} (h : m.IsAffine) (hdet : m.linear.det ≠ 0) :
    s.CarriesNormals (s.transform m) m.linear.det := by
  refine ⟨s.triangles_transform m, fun k _ f hf i _ n hn hacross hne => ?_⟩
  refine ⟨f.map m.mulPoint, m.normalImage n, ?_, ?_, Mat4.length_normalImage h hdet hne, hacross.map h,
    fun halong => halong.map h⟩
  · rw [facet?_transform, hf, Option.map_some]
  · rw [getElem?_normals_transform, hn, Option.map_some]

/-- **Affine maps carry normals.**  Under an invertible affine map a normal across a triangle is taken to a
unit normal across the image of the triangle.  One along the face stays along it if the determinant of the
linear part is positive, and ends up against it if the determinant is negative.  So it is for scaling by
any three factors but zero, of which the product decides. -/
theorem transform_carries_normals (s : SubMesh ℝ) :
    (∀ m : Mat4 ℝ, m.IsAffine → m.linear.det ≠ 0 → s.CarriesNormals (s.transform m) m.linear.det) ∧
      ∀ factor : Vec3 ℝ, factor.x ≠ 0 → factor.y ≠ 0 → factor.z ≠ 0 →
        s.CarriesNormals (s.scale factor) (factor.x * factor.y * factor.z) := by
  refine ⟨fun m h hdet => s.carriesNormals_transform h hdet, fun factor hx hy hz => ?_⟩
  rw [← Mat4.det_linear_scale]
  refine s.carriesNormals_transform (Mat4.isAffine_scale factor) ?_
  rw [Mat4.det_linear_scale]
  exact mul_ne_zero (mul_ne_zero hx hy) hz

/-- A sheared and mirrored triangle: its normal ends up against its face. -/
theorem transform_carries_normals_mirrored :
    let s : SubMesh ℝ :=
      { vertices := #[0, Vec3.unitX, Vec3.unitY], normals := Array.replicate 3 Vec3.unitZ, indices := #[0, 1, 2] }
    let m : Mat4 ℝ := ⟨⟨1, 0, 0, 0⟩, ⟨1, 1, 0, 0⟩, ⟨0, 0, -1, 0⟩, ⟨1, 0, 0, 1⟩⟩
    let factor : Vec3 ℝ := ⟨1, -1, 1⟩
    (m.IsAffine ∧ m.linear.det = -1 ∧ factor.x ≠ 0 ∧ factor.y ≠ 0 ∧ factor.z ≠ 0) ∧
      s.CarriesNormals (s.scale factor) (factor.x * factor.y * factor.z) ∧
      ∃ g n', (⟨0, 1, 2⟩ : Triangle).facet? (s.transform m).vertices = some g ∧
        (s.transform m).normals[0]? = some n' ∧ n'.length = 1 ∧ g.IsAcross n' ∧ g.FacesAgainst n' := by
  intro s m factor
  have haffine : m.IsAffine := ⟨rfl, rfl, rfl, rfl⟩
  have hdet : m.linear.det = -1 := by
    simp [m, Mat4.det_linear_eq]
  have hfactor : factor.x ≠ 0 ∧ factor.y ≠ 0 ∧ factor.z ≠ 0 := by simp [factor]
  obtain ⟨hx, hy, hz⟩ := hfactor
  let f : Facet (Vec3 ℝ) := ⟨0, Vec3.unitX, Vec3.unitY⟩
  have hface : Vec3.unitZ = f.faceVector * (1 : ℝ) := by
    refine Vec3.ext ?_ ?_ ?_ <;>
      simp [f, Facet.faceVector, SubMesh.faceVector, Vec3.unitX, Vec3.unitY, Vec3.unitZ, Vec3.cross_x,
        Vec3.cross_y, Vec3.cross_z]
  have hacross : f.IsAcross Vec3.unitZ := by
    simp [f, Facet.IsAcross, Vec3.unitX, Vec3.unitY, Vec3.unitZ, Vec3.dot_eq]
  have hne : (Vec3.unitZ : Vec3 ℝ) ≠ 0 := fun h => one_ne_zero (congrArg Vec3.z h)
  have hcarries := (transform_carries_normals s).1 m haffine (by rw [hdet]; exact neg_ne_zero.mpr one_ne_zero)
  obtain ⟨g, n', hg, hn', hlength, hacross', hfaces⟩ :=
    hcarries.2 ⟨0, 1, 2⟩ List.mem_cons_self f rfl 0 List.mem_cons_self Vec3.unitZ rfl hacross hne
  refine ⟨⟨haffine, hdet, hx, hy, hz⟩, (transform_carries_normals s).2 factor hx hy hz, g, n', hg, hn', hlength,
    hacross', (hfaces ⟨1, one_pos, hface⟩).2 ?_⟩
  rw [hdet]
  exact neg_one_lt_zero

end SubMesh

end TriMesh
