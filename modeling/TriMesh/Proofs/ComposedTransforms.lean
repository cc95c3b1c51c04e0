import TriMesh.Proofs.CarriedNormals
import TriMesh.Proofs.FaceNormals
import TriMesh.Proofs.MatrixProducts

/-! # Submeshes under maps one after the other

Affine maps act on submeshes, with exact scalars.

* Normals are brought back to unit length after every map.  That loses a positive factor only, and the factor
  goes through the next map, so the images of any normals compose (`Mat4.IsAffine.normalImage_mul`).
* A map whose linear part is the identity leaves alone a normal that is zero or of length 1, so a shift is the
  same as its matrix and an inverse brings such a submesh back (`SubMesh.translate_eq_transform`,
  `SubMesh.transform_inverse`).
* Under a map that keeps lengths the faces move by its cofactors, which keep lengths too; they are a
  homomorphism, so the sums around a vertex and their directions follow (`Triangle.normalSum_map`).  Normals
  made from the faces afterwards are those made before and moved, but for the orientation
  (`SubMesh.recalculateNormals_transform`). -/

namespace TriMesh

namespace Mat4.IsAffine

variable {a b m : Mat4 ℝ}

theorem normalImage_eq (h : m.IsAffine) (n : Vec3 ℝ) :
    m.normalImage n = (m.linear.cofactors.mulVec n * (1 / m.linear.det)).normalizeOrZero :=
  congrArg Vec3.normalizeOrZero (h.inverse_transpose n)

/-- Normals are moved by the product as by the two maps one after the other. -/
theorem normalImage_mul (ha : a.IsAffine) (hb : b.IsAffine) (n : Vec3 ℝ) :
    (b * a).normalImage n = b.normalImage (a.normalImage n) := by
  obtain ⟨c, hc, hfirst⟩ := exists_normalImage_eq ha n
  have hfactor : 1 / a.linear.det * c * (1 / b.linear.det) = 1 / (b.linear.det * a.linear.det) * c := by
    ring
  rw [(ha.mul hb).normalImage_eq, hb.normalImage_eq, ha.linear_mul, Mat3.cofactors_mul, Mat3.det_mul,
    Mat3.mul_mulVec, hfirst, Mat3.mulVec_mul, Vec3.mul_scalar_mul, hfactor, ← Vec3.mul_scalar_mul,
    Vec3.normalizeOrZero_mul_of_pos _ hc]

theorem normalImage_of_linear (h : m.IsAffine) (hlinear : m.linear = 1) {n : Vec3 ℝ} (hn : n = 0 ∨ n.length = 1) :
    m.normalImage n = n := by
  rw [h.normalImage_eq, hlinear, Mat3.cofactors_one, Mat3.det_one, Mat3.one_mulVec, div_one, Vec3.mul_scalar_one,
    Vec3.normalizeOrZero_of_unit_or_zero hn]

/-- A map that keeps lengths moves a unit normal as it moves vectors. -/
theorem normalImage_of_isOrthogonal (h : m.IsAffine) (hm : m.linear.IsOrthogonal) {n : Vec3 ℝ}
    (hn : n = 0 ∨ n.length = 1) : m.normalImage n = m.linear.mulVec n := by
  rw [h.normalImage_eq, hm.cofactors_mulVec, Vec3.mul_scalar_mul, mul_one_div_cancel hm.det_ne_zero,
    Vec3.mul_scalar_one, hm.normalizeOrZero_mulVec, Vec3.normalizeOrZero_of_unit_or_zero hn]

end Mat4.IsAffine

/-! ### Faces under a map that keeps lengths -/

section faces
variable {m : Mat4 ℝ} (hm : m.linear.IsOrthogonal)
include hm

theorem Facet.unitNormal_map (f : Facet (Vec3 ℝ)) :
    (f.map m.mulPoint).unitNormal = m.linear.cofactors.mulVec f.unitNormal := by
  rw [unitNormal, faceVector_map, hm.cofactors.normalizeOrZero_mulVec]
  rfl

namespace Triangle

variable (places : Array (Vec3 ℝ))

theorem unitNormal_map (t : Triangle) :
    t.unitNormal (places.map m.mulPoint) = m.linear.cofactors.mulVec (t.unitNormal places) := by
  unfold unitNormal
  rw [facet?_map]
  cases t.facet? places with
  | none => exact (map_zero m.linear.cofactors.mulVecHom).symm
  | some f => exact f.unitNormal_map hm

theorem share_map (t : Triangle) (i : ℕ) :
    t.share (places.map m.mulPoint) i = m.linear.cofactors.mulVec (t.share places i) := by
  rw [share, share, unitNormal_map hm]
  exact (map_nsmul m.linear.cofactors.mulVecHom _ _).symm

/-- The sum around a vertex moves with the faces. -/
theorem normalSum_map (i : ℕ) (ts : List Triangle) :
    normalSum (places.map m.mulPoint) i ts = m.linear.cofactors.mulVec (normalSum places i ts) := by
  refine Eq.trans ?_ (map_list_sum m.linear.cofactors.mulVecHom _).symm
  rw [List.map_map]
  exact congrArg List.sum (List.map_congr_left fun t _ => share_map hm places t i)

end Triangle

end faces

namespace SubMesh

/-- The same submesh with all normals the other way round. -/
def negateNormals {α : Type} [Scalar α] (s : SubMesh α) : SubMesh α := { s with normals := s.normals.map (-·) }

variable {a b m : Mat4 ℝ} (s : SubMesh ℝ)

theorem transform_mul (ha : a.IsAffine) (hb : b.IsAffine) : s.transform (b * a) = (s.transform a).transform b := by
  have hvertices : s.vertices.map (b * a).mulPoint = (s.vertices.map a.mulPoint).map b.mulPoint := by
    rw [Array.map_map]
    exact congrArg (s.vertices.map ·) (funext (ha.mul_mulPoint b))
  have hnormals : s.normals.map (b * a).normalImage = (s.normals.map a.normalImage).map b.normalImage := by
    rw [Array.map_map]
    exact congrArg (s.normals.map ·) (funext (ha.normalImage_mul hb))
  exact congrArg₂ (fun vs ns => ({ s with vertices := vs, normals := ns } : SubMesh ℝ)) hvertices hnormals

section unit
variable {s} (hs : ∀ n ∈ s.normals, n = 0 ∨ n.length = 1)
include hs

theorem normals_map_of_linear (h : m.IsAffine) (hlinear : m.linear = 1) : s.normals.map m.normalImage = s.normals :=
  calc s.normals.map m.normalImage = s.normals.map id :=
        Array.map_congr_left fun n hn => h.normalImage_of_linear hlinear (hs n hn)
    _ = s.normals := Array.map_id _

theorem translate_eq_transform (offset : Vec3 ℝ) : s.translate offset = s.transform (Mat4.translation offset) := by
  have hvertices : s.vertices.map (· + offset) = s.vertices.map (Mat4.translation offset).mulPoint :=
    congrArg (s.vertices.map ·) (funext fun p => (Mat4.translation_mulPoint offset p).symm)
  have hnormals := normals_map_of_linear hs (Mat4.isAffine_translation offset) (Mat4.linear_translation offset)
  exact congrArg₂ (fun vs ns => ({ s with vertices := vs, normals := ns } : SubMesh ℝ)) hvertices hnormals.symm

theorem transform_one : s.transform 1 = s := by
  have hvertices : s.vertices.map (· + (0 : Vec3 ℝ)) = s.vertices := by
    simp only [add_zero, Array.map_id']
  refine (translate_eq_transform hs 0).symm.trans ?_
  exact congrArg (fun vs => ({ s with vertices := vs } : SubMesh ℝ)) hvertices

theorem transform_inverse (h : m.IsAffine) (hdet : m.linear.det ≠ 0) :
    (s.transform m).transform m.inverse = s := by
  rw [← s.transform_mul h (h.inverse hdet), h.inverse_mul_self hdet, transform_one hs]

end unit

/-- Normals made from the faces of the image are the images of those made from the faces, turned over by a map
that turns orientation over. -/
theorem recalculateNormals_transform (h : m.IsAffine) (hm : m.linear.IsOrthogonal) :
    (s.transform m).recalculateNormals =
      { s.recalculateNormals.transform m with
        normals := (s.recalculateNormals.transform m).normals.map fun n : Vec3 ℝ => n * m.linear.det } := by
  have hnormals : (s.transform m).recalculateNormals.normals =
      (s.recalculateNormals.transform m).normals.map fun n : Vec3 ℝ => n * m.linear.det := by
    refine Array.ext_getElem? fun i => ?_
    have hcount : (s.transform m).vertexCount = s.vertexCount := Array.size_map
    have hsum : Triangle.normalSum (s.transform m).vertices i (s.transform m).triangles =
        m.linear.cofactors.mulVec (Triangle.normalSum s.vertices i s.triangles) :=
      Triangle.normalSum_map hm s.vertices i s.triangles
    rw [Array.getElem?_map, getElem?_normals_recalculateNormals, getElem?_normals_transform,
      getElem?_normals_recalculateNormals, hcount, hsum]
    split
    · have hunit := (Triangle.normalSum s.vertices i s.triangles).normalizeOrZero_eq_zero_or
      rw [Option.map_some, Option.map_some, h.normalImage_of_isOrthogonal hm hunit,
        hm.cofactors.normalizeOrZero_mulVec, hm.cofactors_mulVec]
    · rfl
  exact congrArg (fun ns => ({ s with vertices := s.vertices.map m.mulPoint, normals := ns } : SubMesh ℝ)) hnormals

/-- **Affine maps act on submeshes.**  Under invertible affine maps a submesh goes one after the other where the
product takes it, whatever its normals are.  If they are zero or of length 1, the inverse brings the submesh
back and a shift is the same as its matrix.  An orthogonal map can be made before or after the normals are
made from the faces; if it turns orientation over, all of them are negated. -/
theorem transform_composes (s : SubMesh ℝ) :
    (∀ a b : Mat4 ℝ, a.IsAffine → b.IsAffine → a.linear.det ≠ 0 → b.linear.det ≠ 0 →
      (s.transform a).transform b = s.transform (b * a)) ∧
      ((∀ n ∈ s.normals, n = 0 ∨ n.length = 1) →
        (∀ a : Mat4 ℝ, a.IsAffine → a.linear.det ≠ 0 →
          a.inverse * a = 1 ∧ (s.transform a).transform a.inverse = s) ∧
          ∀ offset, s.translate offset = s.transform (Mat4.translation offset)) ∧
      ∀ m : Mat4 ℝ, m.IsAffine → m.linear.IsOrthogonal →
        (m.linear.det = 1 ∨ m.linear.det = -1) ∧
          (m.linear.det = 1 → (s.transform m).recalculateNormals = s.recalculateNormals.transform m) ∧
          (m.linear.det = -1 →
            (s.transform m).recalculateNormals = (s.recalculateNormals.transform m).negateNormals) := by
  refine ⟨fun a b ha hb _ _ => (s.transform_mul ha hb).symm, fun hs => ⟨fun a ha hdet => ?_, ?_⟩,
    fun m h hm => ⟨mul_self_eq_one_iff.mp hm.det_mul_self, fun hdet => ?_, fun hdet => ?_⟩⟩
  · exact ⟨ha.inverse_mul_self hdet, transform_inverse hs ha hdet⟩
  · exact translate_eq_transform hs
  · rw [s.recalculateNormals_transform h hm, hdet]
    simp only [Vec3.mul_scalar_one, Array.map_id']
  · rw [s.recalculateNormals_transform h hm, hdet]
    simp only [Vec3.mul_scalar_neg_one, negateNormals]

/-- A triangle with a unit normal across it, no normal at its second corner and one in its plane at the third,
sheared and stretched, turned by a quarter, and mirrored. -/
theorem transform_composes_mirrored :
    let s : SubMesh ℝ :=
      { vertices := #[0, Vec3.unitX, Vec3.unitY], normals := #[Vec3.unitZ, 0, Vec3.unitX], indices := #[0, 1, 2] }
    let shear : Mat4 ℝ := ⟨⟨1, 0, 0, 0⟩, ⟨1, 1, 0, 0⟩, ⟨0, 0, 2, 0⟩, ⟨1, 2, 3, 1⟩⟩
    let turn : Mat4 ℝ := ⟨⟨0, 1, 0, 0⟩, ⟨-1, 0, 0, 0⟩, ⟨0, 0, 1, 0⟩, ⟨4, 0, 0, 1⟩⟩
    let mirror : Mat4 ℝ := ⟨⟨0, 1, 0, 0⟩, ⟨1, 0, 0, 0⟩, ⟨0, 0, 1, 0⟩, ⟨0, 0, 5, 1⟩⟩
    ((∀ n ∈ s.normals, n = 0 ∨ n.length = 1) ∧ (shear.IsAffine ∧ shear.linear.det = 2) ∧
        (turn.IsAffine ∧ turn.linear.IsOrthogonal ∧ turn.linear.det = 1) ∧
        mirror.IsAffine ∧ mirror.linear.IsOrthogonal ∧ mirror.linear.det = -1) ∧
      (s.transform shear).transform mirror = s.transform (mirror * shear) ∧
      (s.transform shear).transform shear.inverse = s ∧
      s.translate Vec3.unitX = s.transform (Mat4.translation Vec3.unitX) ∧
      (s.transform turn).recalculateNormals = s.recalculateNormals.transform turn ∧
      (s.transform mirror).recalculateNormals = (s.recalculateNormals.transform mirror).negateNormals := by
  intro s shear turn mirror
  have hs : ∀ n ∈ s.normals, n = 0 ∨ n.length = 1 := by
    simp [s, Vec3.length, Vec3.dot_eq, Vec3.unitX, Vec3.unitZ]
  have hshear : shear.linear.det = 2 := by
    simp [shear, Mat4.det_linear_eq]
  have hturn : turn.linear.det = 1 := by
    simp [turn, Mat4.det_linear_eq]
  have hmirror : mirror.linear.det = -1 := by
    simp [mirror, Mat4.det_linear_eq]
  have hturns : turn.linear.IsOrthogonal := fun u v => by
    simp only [turn, Mat4.linear, Vec4.xyz, Vec3.dot_eq, Mat3.mulVec_x, Mat3.mulVec_y, Mat3.mulVec_z]
    ring
  have hmirrors : mirror.linear.IsOrthogonal := fun u v => by
    simp only [mirror, Mat4.linear, Vec4.xyz, Vec3.dot_eq, Mat3.mulVec_x, Mat3.mulVec_y, Mat3.mulVec_z]
    ring
  have hinvertible : shear.linear.det ≠ 0 := by
    rw [hshear]
    exact two_ne_zero
  have haffine : shear.IsAffine ∧ turn.IsAffine ∧ mirror.IsAffine :=
    ⟨⟨rfl, rfl, rfl, rfl⟩, ⟨rfl, rfl, rfl, rfl⟩, ⟨rfl, rfl, rfl, rfl⟩⟩
  obtain ⟨hproduct, hunit, horthogonal⟩ := transform_composes s
  refine ⟨⟨hs, ⟨haffine.1, hshear⟩, ⟨haffine.2.1, hturns, hturn⟩, haffine.2.2, hmirrors, hmirror⟩,
    ?_, ?_, ?_, ?_, ?_⟩
  · exact hproduct shear mirror haffine.1 haffine.2.2 hinvertible hmirrors.det_ne_zero
  · exact ((hunit hs).1 shear haffine.1 hinvertible).2
  · exact (hunit hs).2 Vec3.unitX
  · exact (horthogonal turn haffine.2.1 hturns).2.1 hturn
  · exact (horthogonal mirror haffine.2.2 hmirrors).2.2 hmirror

end SubMesh

end TriMesh
