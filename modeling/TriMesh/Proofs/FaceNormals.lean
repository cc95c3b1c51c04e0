import Mathlib.Logic.Relation
import TriMesh.Proofs.OutwardLattices
import TriMesh.Proofs.SpaceVectors
import TriMesh.SubMesh.Normals

/-! # Normals from faces

What a pass that makes normals from faces gives, whatever the index list is.

* It asks for positions and indices alone and keeps everything but the normals, over any scalars.
* With exact scalars the normal of a vertex is the direction of a sum over all triangles, in which each
  counts as often as it names the vertex (`Triangle.normalSum`, `SubMesh.normals_recalculateNormals`).
* The sum stays the same when triangles are put in another order, begun with another corner, or joined by
  triangles without a face (`Triangle.Rearranges`, `Triangle.normalSum_eq_of_rearranges`), and it is
  negated when all triangles are turned over (`Triangle.normalSum_map_flip`).
* Behind an indexed submesh the sums begin anew, so the normals of two submeshes put together are those of
  the two (`SubMesh.Indexed.normals_recalculateNormals_append`). -/

namespace TriMesh

/-- The direction in which a facet faces, or zero if it spans no area. -/
def Facet.unitNormal {α : Type} [Scalar α] (f : Facet (Vec3 α)) : Vec3 α := f.faceVector.normalizeOrZero

namespace Facet

theorem faceVector_rotate (f : Facet (Vec3 ℝ)) : f.rotate.faceVector = f.faceVector := by
  refine Vec3.ext ?_ ?_ ?_ <;>
    simp only [faceVector, SubMesh.faceVector, rotate, Vec3.cross_x, Vec3.cross_y, Vec3.cross_z, Vec3.sub_x,
      Vec3.sub_y, Vec3.sub_z] <;>
    ring

theorem unitNormal_rotate (f : Facet (Vec3 ℝ)) : f.rotate.unitNormal = f.unitNormal :=
  congrArg Vec3.normalizeOrZero f.faceVector_rotate

theorem unitNormal_flip (f : Facet (Vec3 ℝ)) : f.flip.unitNormal = -f.unitNormal :=
  (congrArg Vec3.normalizeOrZero f.faceVector_flip).trans (Vec3.normalizeOrZero_neg _)

end Facet

/-! ### Triangles over places -/

namespace Triangle

section scalar
variable {α : Type} [Scalar α]

/-- The same triangle, begun with its second corner. -/
def rotate (t : Triangle) : Triangle := ⟨t.b, t.c, t.a⟩

/-- The triangle has its three corners, and they span an area. -/
def HasFace (places : Array (Vec3 α)) (t : Triangle) : Prop :=
  ∃ f, t.facet? places = some f ∧ f.faceVector ≠ 0

/-- The direction in which a triangle faces, or zero if it has no face. -/
def unitNormal (places : Array (Vec3 α)) (t : Triangle) : Vec3 α :=
  ((t.facet? places).map Facet.unitNormal).getD 0

theorem facet?_rotate {β : Type} (places : Array β) (t : Triangle) :
    t.rotate.facet? places = (t.facet? places).map Facet.rotate := by
  simp only [facet?, rotate, Option.bind_eq_bind, Option.pure_def]
  cases places[t.a]? <;> cases places[t.b]? <;> cases places[t.c]? <;> rfl

theorem unitNormal_of_facet? {places : Array (Vec3 α)} {t : Triangle} {f : Facet (Vec3 α)}
    (h : t.facet? places = some f) : t.unitNormal places = f.unitNormal := by
  rw [unitNormal, h]
  rfl

end scalar

variable (places : Array (Vec3 ℝ)) (t : Triangle) (i : ℕ)

theorem unitNormal_rotate : t.rotate.unitNormal places = t.unitNormal places := by
  unfold unitNormal
  rw [facet?_rotate, Option.map_map]
  congr 2
  exact funext Facet.unitNormal_rotate

theorem unitNormal_flip : t.flip.unitNormal places = -t.unitNormal places := by
  unfold unitNormal
  rw [facet?_flip]
  cases t.facet? places with
  | none => exact neg_zero.symm
  | some f => exact f.unitNormal_flip

variable {places t} in
theorem unitNormal_of_not_hasFace (h : ¬t.HasFace places) : t.unitNormal places = 0 := by
  unfold unitNormal
  cases hf : t.facet? places with
  | none => rfl
  | some f =>
      have hflat : f.faceVector = 0 := not_not.mp fun hne => h ⟨f, hf, hne⟩
      exact (congrArg Vec3.normalizeOrZero hflat).trans Vec3.normalizeOrZero_zero

theorem count_rotate : t.rotate.toList.count i = t.toList.count i :=
  (@List.perm_append_comm _ [t.b, t.c] [t.a]).count_eq i

theorem count_flip : t.flip.toList.count i = t.toList.count i :=
  ((List.Perm.swap t.b t.c []).cons t.a).count_eq i

/-! ### Sums around a vertex -/

/-- What a triangle brings to a vertex: its direction for each corner there. -/
noncomputable def share : Vec3 ℝ := t.toList.count i • t.unitNormal places

/-- What the triangles of a list bring to a vertex together. -/
noncomputable def normalSum (ts : List Triangle) : Vec3 ℝ := (ts.map fun t => t.share places i).sum

theorem share_rotate : t.rotate.share places i = t.share places i := by
  rw [share, share, count_rotate, unitNormal_rotate]

theorem share_flip : t.flip.share places i = -t.share places i := by
  rw [share, share, count_flip, unitNormal_flip, smul_neg]

variable {places t} in
theorem share_of_not_hasFace (h : ¬t.HasFace places) : t.share places i = 0 := by
  rw [share, unitNormal_of_not_hasFace h, smul_zero]

variable {places t i} in
theorem share_of_notMem (h : i ∉ t.toList) : t.share places i = 0 := by
  rw [share, List.count_eq_zero_of_not_mem h, zero_nsmul]

variable {places t} in
theorem share_append_of_below (h : t.Below places.size) (more : Array (Vec3 ℝ)) :
    t.share (places ++ more) i = t.share places i := by
  rw [share, share, unitNormal, facet?_append_of_below h]
  rfl

theorem share_shift (more : Array (Vec3 ℝ)) :
    (t.shift places.size).share (places ++ more) (i + places.size) = t.share more i := by
  have hcount : (t.shift places.size).toList.count (i + places.size) = t.toList.count i :=
    List.count_map_of_injective t.toList (· + places.size) (add_left_injective _) i
  rw [share, share, unitNormal, facet?_append_shift, hcount]
  rfl

theorem normalSum_append (ts us : List Triangle) :
    normalSum places i (ts ++ us) = normalSum places i ts + normalSum places i us := by
  rw [normalSum, List.map_append, List.sum_append]
  rfl

theorem normalSum_cons (ts : List Triangle) :
    normalSum places i (t :: ts) = t.share places i + normalSum places i ts := List.sum_cons

theorem normalSum_map_flip (ts : List Triangle) :
    normalSum places i (ts.map flip) = -normalSum places i ts := by
  induction ts with
  | nil => exact neg_zero.symm
  | cons t ts ih => rw [List.map_cons, normalSum_cons, normalSum_cons, ih, share_flip, neg_add]

variable {places i} in
/-- What brings nothing one by one brings nothing together. -/
theorem normalSum_eq_zero {ts : List Triangle} (h : ∀ t ∈ ts, t.share places i = 0) :
    normalSum places i ts = 0 := by
  refine List.sum_eq_zero fun v hv => ?_
  obtain ⟨t, ht, rfl⟩ := List.mem_map.mp hv
  exact h t ht

variable {places} in
theorem normalSum_append_of_below {ts : List Triangle} (h : ∀ t ∈ ts, t.Below places.size)
    (more : Array (Vec3 ℝ)) : normalSum (places ++ more) i ts = normalSum places i ts :=
  congrArg List.sum (List.map_congr_left fun t ht => share_append_of_below i (h t ht) more)

theorem normalSum_shift (more : Array (Vec3 ℝ)) (ts : List Triangle) :
    normalSum (places ++ more) (i + places.size) (ts.map (·.shift places.size)) = normalSum more i ts := by
  rw [normalSum, List.map_map]
  exact congrArg List.sum (List.map_congr_left fun t _ => share_shift places t i more)

/-- One change of a list of triangles that keeps the faces over given places. -/
inductive Rearranges (places : Array (Vec3 ℝ)) : List Triangle → List Triangle → Prop
  /-- The triangles come in another order. -/
  | reorder {ts us : List Triangle} (h : ts.Perm us) : Rearranges places ts us
  /-- One triangle begins with its second corner. -/
  | rotate (ts : List Triangle) (t : Triangle) (us : List Triangle) :
      Rearranges places (ts ++ t :: us) (ts ++ t.rotate :: us)
  /-- A triangle that lacks a corner or spans no area comes in between. -/
  | insert (ts : List Triangle) {t : Triangle} (us : List Triangle) (h : ¬t.HasFace places) :
      Rearranges places (ts ++ us) (ts ++ t :: us)

variable {places} in
theorem normalSum_eq_of_rearranges {ts us : List Triangle} (h : Rearranges places ts us) :
    normalSum places i ts = normalSum places i us := by
  cases h with
  | reorder h => exact (h.map _).sum_eq
  | rotate ts t us => simp only [normalSum_append, normalSum_cons, share_rotate]
  | insert ts us h => simp only [normalSum_append, normalSum_cons, share_of_not_hasFace i h, zero_add]

variable {places} in
/-- The sums stay the same under any number of such changes, made or undone. -/
theorem normalSum_eq_of_eqvGen {ts us : List Triangle} (h : Relation.EqvGen (Rearranges places) ts us) :
    normalSum places i ts = normalSum places i us := by
  induction h with
  | rel _ _ h => exact normalSum_eq_of_rearranges i h
  | refl _ => rfl
  | symm _ _ _ ih => exact ih.symm
  | trans _ _ _ _ _ ih ih' => exact ih.trans ih'

/-- Turning over all complete triangles of an index list, whatever is left over at its end. -/
theorem ofIndices_reverseWinding : ∀ l : List ℕ, ofIndices (reverseWinding l) = (ofIndices l).map flip
  | [] => rfl
  | [_] => rfl
  | [_, _] => rfl
  | a :: b :: c :: rest => congrArg (Triangle.mk a c b :: ·) (ofIndices_reverseWinding rest)

end Triangle

/-! ### The pass over a submesh -/

namespace SubMesh

/-- A fold whose steps each add a share to an entry adds all the shares to it. -/
theorem getElem?_foldl_of_step {ι : Type} {step : Array (Vec3 ℝ) → ι → Array (Vec3 ℝ)} {share : ι → Vec3 ℝ}
    {i : ℕ} (h : ∀ sums b, (step sums b)[i]? = sums[i]?.map (· + share b)) (bs : List ι)
    (sums : Array (Vec3 ℝ)) : (bs.foldl step sums)[i]? = sums[i]?.map (· + (bs.map share).sum) := by
  induction bs generalizing sums with
  | nil => simp
  | cons b bs ih =>
      rw [List.foldl_cons, ih, h, Option.map_map, List.map_cons, List.sum_cons]
      congr 1
      exact funext fun v => add_assoc _ _ _

theorem getElem?_accumulate (sums : Array (Vec3 ℝ)) (t : Triangle) (face : Vec3 ℝ) (i : ℕ) :
    (accumulate sums t face)[i]? = sums[i]?.map (· + t.toList.count i • face) := by
  have hstep (sums : Array (Vec3 ℝ)) (j : ℕ) :
      (sums.modify j (· + face))[i]? = sums[i]?.map (· + if j = i then face else 0) := by
    rw [Array.getElem?_modify]
    split
    · rfl
    · simp
  have hshares (is : List ℕ) : (is.map fun j => if j = i then face else 0).sum = is.count i • face := by
    induction is with
    | nil => exact (zero_nsmul face).symm
    | cons j is ih =>
        rw [List.map_cons, List.sum_cons, ih]
        by_cases hj : j = i
        · rw [if_pos hj, hj, List.count_cons_self, succ_nsmul']
        · rw [if_neg hj, List.count_cons_of_ne hj, zero_add]
  rw [accumulate, getElem?_foldl_of_step hstep, hshares]

variable (s : SubMesh ℝ)

/-- The sum of a vertex is that of the shares which the triangles bring to it. -/
theorem getElem?_faceSums (i : ℕ) :
    s.faceSums[i]? = if i < s.vertexCount then some (Triangle.normalSum s.vertices i s.triangles) else none := by
  unfold faceSums
  rw [@getElem?_foldl_of_step _ _ (fun t => t.share s.vertices i) i, Array.getElem?_replicate]
  · split
    · exact congrArg some (zero_add _)
    · rfl
  · intro sums t
    rw [Triangle.share, Triangle.unitNormal, s.corners?_eq]
    cases t.facet? s.vertices with
    | none => simp
    | some f => exact getElem?_accumulate sums t f.unitNormal i

theorem getElem?_normals_recalculateNormals (i : ℕ) :
    s.recalculateNormals.normals[i]? =
      if i < s.vertexCount then some (Triangle.normalSum s.vertices i s.triangles).normalizeOrZero
      else none := by
  simp only [recalculateNormals, Array.getElem?_map, getElem?_faceSums]
  split <;> rfl

theorem normals_recalculateNormals_eq (t : SubMesh ℝ) (hv : t.vertices = s.vertices)
    (h : ∀ i, Triangle.normalSum s.vertices i t.triangles = Triangle.normalSum s.vertices i s.triangles) :
    t.recalculateNormals.normals = s.recalculateNormals.normals := by
  refine Array.ext_getElem? fun i => ?_
  rw [getElem?_normals_recalculateNormals, getElem?_normals_recalculateNormals, vertexCount, hv, h]
  rfl

theorem normals_recalculateNormals_reverseWinding :
    (s.reverseWindingFrom 0).recalculateNormals.normals = s.recalculateNormals.normals.map (-·) := by
  have hflip : (s.reverseWindingFrom 0).triangles = s.triangles.map Triangle.flip := by
    unfold triangles reverseWindingFrom
    simp [Triangle.ofIndices_reverseWinding]
  have hcount : (s.reverseWindingFrom 0).vertexCount = s.vertexCount := rfl
  refine Array.ext_getElem? fun i => ?_
  rw [Array.getElem?_map, getElem?_normals_recalculateNormals, getElem?_normals_recalculateNormals, hflip,
    hcount, Triangle.normalSum_map_flip, Vec3.normalizeOrZero_neg]
  by_cases hi : i < s.vertexCount
  · rw [if_pos hi, if_pos hi]
    rfl
  · rw [if_neg hi, if_neg hi]
    rfl

theorem size_normals_recalculateNormals {α : Type} [Scalar α] (s : SubMesh α) :
    s.recalculateNormals.normals.size = s.vertices.size :=
  Array.size_map.trans s.size_faceSums

variable {s} in
/-- Behind an indexed submesh the sums begin anew. -/
theorem Indexed.normals_recalculateNormals_append (hs : s.Indexed) (t : SubMesh ℝ) :
    (s ++ t).recalculateNormals.normals = s.recalculateNormals.normals ++ t.recalculateNormals.normals := by
  have hvertices : (s ++ t).vertices = s.vertices ++ t.vertices := rfl
  refine Array.ext_getElem? fun i => ?_
  rw [getElem?_normals_recalculateNormals, hs.triangles_append, Triangle.normalSum_append, hvertices,
    vertexCount_append]
  by_cases hi : i < s.vertices.size
  · have hlater : ∀ u ∈ t.triangles.map (·.shift s.vertexCount),
        u.share (s.vertices ++ t.vertices) i = 0 := by
      intro u hu
      obtain ⟨v, -, rfl⟩ := List.mem_map.mp hu
      refine Triangle.share_of_notMem ?_
      simp only [Triangle.shift, Triangle.toList, vertexCount, List.mem_cons, List.not_mem_nil, or_false]
      omega
    have hin : i < s.vertexCount + t.vertexCount := Nat.lt_add_right _ hi
    rw [Triangle.normalSum_append_of_below i hs.below, Triangle.normalSum_eq_zero hlater, add_zero,
      if_pos hin, Array.getElem?_append_left (s.size_normals_recalculateNormals.symm ▸ hi),
      getElem?_normals_recalculateNormals]
    exact (if_pos hi).symm
  · obtain ⟨j, rfl⟩ : ∃ j, i = j + s.vertices.size := ⟨i - s.vertices.size, by omega⟩
    have hearlier : ∀ u ∈ s.triangles, u.share (s.vertices ++ t.vertices) (j + s.vertices.size) = 0 := by
      intro u hu
      obtain ⟨ha, hb, hc⟩ := hs.below u hu
      refine Triangle.share_of_notMem ?_
      simp only [Triangle.toList, vertexCount, List.mem_cons, List.not_mem_nil, or_false] at ha hb hc ⊢
      omega
    have hshifted := Triangle.normalSum_shift s.vertices j t.vertices t.triangles
    rw [Triangle.normalSum_eq_zero hearlier, zero_add, Array.getElem?_append_right, size_normals_recalculateNormals,
      Nat.add_sub_cancel, getElem?_normals_recalculateNormals]
    · refine if_congr ?_ (congrArg (fun v => some (Vec3.normalizeOrZero v)) hshifted) rfl
      simp only [vertexCount]
      omega
    · rw [size_normals_recalculateNormals]
      exact Nat.le_add_left _ _

/-- **Normals come from the faces.**  A pass over any submesh keeps positions, texture coordinates and
indices, gives one normal for each vertex, and asks for positions and indices alone, so that a second pass
changes nothing.  With exact scalars each normal is zero or of length 1.  The normals stay the same when
complete triangles are reordered, begun with another corner, or joined by ones that lack a corner or span no
area; and they are all negated when the triangles are turned over first. -/
theorem recalculateNormals_from_faces :
    (∀ {α : Type} [Scalar α] (s : SubMesh α),
      s.recalculateNormals.vertices = s.vertices ∧ s.recalculateNormals.texcoords = s.texcoords ∧
        s.recalculateNormals.indices = s.indices ∧ s.recalculateNormals.normalCount = s.vertexCount ∧
        s.recalculateNormals.recalculateNormals = s.recalculateNormals ∧
        ∀ ns uvs, ({ s with normals := ns, texcoords := uvs } : SubMesh α).recalculateNormals.normals =
          s.recalculateNormals.normals) ∧
      ∀ s : SubMesh ℝ,
        (∀ n ∈ s.recalculateNormals.normals, n = 0 ∨ n.length = 1) ∧
          (∀ t : SubMesh ℝ, t.vertices = s.vertices →
            Relation.EqvGen (Triangle.Rearranges s.vertices) s.triangles t.triangles →
              t.recalculateNormals.normals = s.recalculateNormals.normals) ∧
          (s.reverseWindingFrom 0).recalculateNormals.normals =
            s.recalculateNormals.normals.map fun n => -n := by
  refine ⟨fun s => ⟨rfl, rfl, rfl, s.size_normals_recalculateNormals, rfl, fun _ _ => rfl⟩, fun s => ⟨?_, ?_, ?_⟩⟩
  · intro n hn
    obtain ⟨v, -, rfl⟩ := Array.mem_map.mp hn
    exact v.normalizeOrZero_eq_zero_or
  · intro t hv h
    exact s.normals_recalculateNormals_eq t hv fun i => (Triangle.normalSum_eq_of_eqvGen i h).symm
  · exact s.normals_recalculateNormals_reverseWinding

/-- Two faces that meet at a right angle, listed the other way with one of them begun elsewhere, a triangle
without area and one without a third vertex in between, and an incomplete one at the end. -/
theorem recalculateNormals_from_faces_corner :
    let places : Array (Vec3 ℝ) := #[0, Vec3.unitX, Vec3.unitY, Vec3.unitZ]
    let s : SubMesh ℝ := { vertices := places, indices := #[0, 1, 2, 0, 3, 1] }
    let t : SubMesh ℝ := { vertices := places, indices := #[3, 1, 0, 2, 2, 3, 0, 1, 9, 0, 1, 2, 3] }
    (t.vertices = s.vertices ∧ Relation.EqvGen (Triangle.Rearranges s.vertices) s.triangles t.triangles) ∧
      t.recalculateNormals.normals = s.recalculateNormals.normals := by
  intro places s t
  have hflat : ¬(⟨2, 2, 3⟩ : Triangle).HasFace places := by
    rintro ⟨f, hf, hface⟩
    obtain rfl : ⟨Vec3.unitY, Vec3.unitY, Vec3.unitZ⟩ = f := Option.some.inj hf
    exact hface (Facet.faceVector_of_not_isProper fun h => h.1 rfl)
  have hdangling : ¬(⟨0, 1, 9⟩ : Triangle).HasFace places := by
    rintro ⟨f, hf, -⟩
    exact absurd hf (by simp [Triangle.facet?, places])
  have hs : s.triangles = [⟨0, 1, 2⟩, ⟨0, 3, 1⟩] := rfl
  have ht : t.triangles = [⟨3, 1, 0⟩, ⟨2, 2, 3⟩, ⟨0, 1, 9⟩, ⟨0, 1, 2⟩] := rfl
  have h : Relation.EqvGen (Triangle.Rearranges s.vertices) s.triangles t.triangles := by
    rw [hs, ht]
    refine .trans _ [⟨0, 3, 1⟩, ⟨0, 1, 2⟩] _ (.rel _ _ (.reorder (List.Perm.swap _ _ _))) ?_
    refine .trans _ [⟨3, 1, 0⟩, ⟨0, 1, 2⟩] _ (.rel _ _ (.rotate [] ⟨0, 3, 1⟩ _)) ?_
    refine .trans _ [⟨3, 1, 0⟩, ⟨2, 2, 3⟩, ⟨0, 1, 2⟩] _ (.rel _ _ (.insert [_] _ hflat)) ?_
    exact .rel _ _ (.insert [⟨3, 1, 0⟩, ⟨2, 2, 3⟩] _ hdangling)
  exact ⟨⟨rfl, h⟩, (recalculateNormals_from_faces.2 s).2.1 t rfl h⟩

end SubMesh

end TriMesh
