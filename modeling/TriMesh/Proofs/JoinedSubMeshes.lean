import TriMesh.Proofs.Surfaces
import TriMesh.Proofs.Generators

/-! # Submeshes put behind each other

What `append` gives, over any scalars.

* It is associative, since shifts of indices add up, and the empty submesh is its unit on both sides
  (`SubMesh.append_assoc`, `SubMesh.empty_append`, `SubMesh.append_empty`).
* `validate` accepts exactly the indexed submeshes whose normals and texture coordinates *fit* the vertices:
  there is one for each or none at all (`SubMesh.validate_eq_ok_iff`).  Behind each other two buffers that fit
  still do so unless just one of them is missing (`SubMesh.fits_append_iff`).
* Every textured primitive has a vertex (`MeshSpec.vertexCount_pos`), so a camera box behind it leaves vertices
  without texture coordinates. -/

namespace TriMesh

/-- Triangles below the number of places have all their corners. -/
theorem Triangle.map_facet?_of_below {β : Type} {places : Array β} {ts : List Triangle}
    (h : ∀ t ∈ ts, t.Below places.size) : ts.map (facet? places) = (facets places ts).map some := by
  unfold facets
  induction ts with
  | nil => rfl
  | cons t ts ih =>
      obtain ⟨f, hf⟩ := exists_facet? (h t List.mem_cons_self)
      rw [List.map_cons, List.filterMap_cons_some hf, hf, List.map_cons,
        ih fun u hu => h u (List.mem_cons_of_mem t hu)]

namespace SubMesh

variable {α : Type} {s t : SubMesh α}

/-! ### The laws of appending -/

theorem append_assoc (s t u : SubMesh α) : s ++ t ++ u = s ++ (t ++ u) := by
  have hindices : s.indices ++ t.indices.map (· + s.vertexCount) ++ u.indices.map (· + (s ++ t).vertexCount) =
      s.indices ++ (t.indices ++ u.indices.map (· + t.vertexCount)).map (· + s.vertexCount) := by
    rw [Array.append_assoc, Array.map_append, Array.map_map, vertexCount_append]
    refine congrArg (fun is => s.indices ++ (t.indices.map (· + s.vertexCount) ++ u.indices.map is)) ?_
    funext i
    simp only [Function.comp_apply]
    omega
  calc s ++ t ++ u = ⟨s.vertices ++ t.vertices ++ u.vertices, s.normals ++ t.normals ++ u.normals,
        s.texcoords ++ t.texcoords ++ u.texcoords,
        s.indices ++ t.indices.map (· + s.vertexCount) ++ u.indices.map (· + (s ++ t).vertexCount)⟩ := rfl
    _ = s ++ (t ++ u) := by
      rw [hindices, Array.append_assoc, Array.append_assoc, Array.append_assoc]
      rfl

theorem empty_append (s : SubMesh α) : empty ++ s = s :=
  calc empty ++ s = ⟨#[] ++ s.vertices, #[] ++ s.normals, #[] ++ s.texcoords, #[] ++ s.indices.map (· + 0)⟩ := rfl
    _ = s := by simp only [Array.empty_append, Nat.add_zero, Array.map_id']

theorem append_empty (s : SubMesh α) : s ++ empty = s :=
  calc s ++ empty = ⟨s.vertices ++ #[], s.normals ++ #[], s.texcoords ++ #[],
        s.indices ++ #[].map (· + s.vertexCount)⟩ := rfl
    _ = s := by simp only [Array.map_empty, Array.append_empty]

/-! ### Valid submeshes -/

/-- A buffer of `n` entries has one for each vertex, or is missing. -/
def Fits (s : SubMesh α) (n : Nat) : Prop := n = 0 ∨ n = s.vertexCount

/-- The triangles of an indexed submesh have all their corners. -/
theorem Indexed.map_facet? (h : s.Indexed) : s.triangles.map (Triangle.facet? s.vertices) = s.facets.map some :=
  Triangle.map_facet?_of_below h.below

theorem validate_eq_ok_iff : s.validate = .ok () ↔ s.Indexed ∧ s.Fits s.normalCount ∧ s.Fits s.texcoordCount := by
  have hvalidate : s.validate = .ok () ↔ s.fault? = none := by
    unfold validate
    cases s.fault? <;> simp
  rw [hvalidate]
  constructor
  · intro h
    have hwhole : s.indexCount % 3 = 0 := by
      by_contra hne
      simp [fault?, hne] at h
    have hindexed : s.Indexed := by
      refine ⟨hwhole, fun i hi => ?_⟩
      by_contra hlt
      have hsome : s.firstDanglingIndex?.isSome := by
        refine List.find?_isSome.mpr ⟨i, Array.mem_toList_iff.mpr hi, ?_⟩
        simpa using hlt
      obtain ⟨j, hj⟩ := Option.isSome_iff_exists.mp hsome
      simp [fault?, hwhole, hj] at h
    rw [hindexed.fault?_eq] at h
    refine ⟨hindexed, ?_, ?_⟩
    · unfold Fits
      by_contra hne
      rw [if_pos (not_or.mp hne)] at h
      cases h
    · unfold Fits
      by_contra hne
      split at h
      · cases h
      · rw [if_pos (not_or.mp hne)] at h
        cases h
  · rintro ⟨hindexed, hnormals, htexcoords⟩
    unfold Fits at hnormals htexcoords
    rw [hindexed.fault?_eq, if_neg (by omega), if_neg (by omega)]

/-- Two buffers that fit still do so behind each other, unless just one of them is missing. -/
theorem fits_append_iff {m n : Nat} (hm : s.Fits m) (hn : t.Fits n) (hs : s.vertexCount ≠ 0)
    (ht : t.vertexCount ≠ 0) : (s ++ t).Fits (m + n) ↔ (m = 0 ↔ n = 0) := by
  unfold Fits at hm hn ⊢
  rw [vertexCount_append]
  omega

/-- A valid submesh without vertices is empty. -/
theorem eq_empty_of_valid (h : s.validate = .ok ()) (hs : s.vertexCount = 0) : s = empty := by
  obtain ⟨hindexed, hnormals, htexcoords⟩ := validate_eq_ok_iff.mp h
  have hindices : s.indices = #[] := by
    refine Array.eq_empty_iff_forall_not_mem.mpr fun i hi => ?_
    have hin := hindexed.inRange i hi
    omega
  have hnormals : s.normals = #[] := by
    refine Array.eq_empty_of_size_eq_zero ?_
    exact hnormals.elim id fun h => h.trans hs
  have htexcoords : s.texcoords = #[] := by
    refine Array.eq_empty_of_size_eq_zero ?_
    exact htexcoords.elim id fun h => h.trans hs
  obtain ⟨vertices, normals, texcoords, indices⟩ := s
  obtain rfl : vertices = #[] := Array.eq_empty_of_size_eq_zero hs
  subst hindices hnormals htexcoords
  rfl

theorem validate_append_iff (hs : s.validate = .ok ()) (ht : t.validate = .ok ()) :
    (s ++ t).validate = .ok () ↔
      s.vertexCount = 0 ∨ t.vertexCount = 0 ∨
        ((s.normalCount = 0 ↔ t.normalCount = 0) ∧ (s.texcoordCount = 0 ↔ t.texcoordCount = 0)) := by
  by_cases hsn : s.vertexCount = 0
  · rw [eq_empty_of_valid hs hsn, empty_append]
    exact ⟨fun _ => Or.inl rfl, fun _ => ht⟩
  by_cases htn : t.vertexCount = 0
  · rw [eq_empty_of_valid ht htn, append_empty]
    exact ⟨fun _ => Or.inr (Or.inl rfl), fun _ => hs⟩
  obtain ⟨hsi, hsnormals, hstexcoords⟩ := validate_eq_ok_iff.mp hs
  obtain ⟨hti, htnormals, httexcoords⟩ := validate_eq_ok_iff.mp ht
  have hnormals : (s ++ t).normalCount = s.normalCount + t.normalCount := Array.size_append
  have htexcoords : (s ++ t).texcoordCount = s.texcoordCount + t.texcoordCount := Array.size_append
  rw [validate_eq_ok_iff, hnormals, htexcoords, fits_append_iff hsnormals htnormals hsn htn,
    fits_append_iff hstexcoords httexcoords hsn htn]
  simp only [hsi.append hti, hsn, htn, true_and, false_or]

theorem vertexCount_le_append (s t : SubMesh α) : s.vertexCount ≤ (s ++ t).vertexCount := by
  rw [vertexCount_append]
  exact Nat.le_add_right _ _

theorem vertexCount_le_foldl (ps : List (SubMesh α)) :
    ∀ s : SubMesh α, s.vertexCount ≤ (ps.foldl (· ++ ·) s).vertexCount := by
  induction ps with
  | nil => exact fun s => le_rfl
  | cons p ps ih => exact fun s => (s.vertexCount_le_append p).trans (ih (s ++ p))

end SubMesh

/-! ### Textured primitives -/

variable {α : Type} [Scalar α]

theorem Lattice.vertexCount_pos (l : Lattice α) : 0 < l.mesh.vertexCount := by
  rw [vertexCount_mesh]
  exact Nat.mul_pos (Nat.succ_pos _) (Nat.succ_pos _)

theorem Camera.vertexCount_mesh (c : Camera α) : c.mesh.vertexCount = 24 := by
  simp [mesh, SubMesh.vertexCount, BoxFace.length_directions]

namespace MeshSpec

/-- Every textured primitive has a vertex. -/
theorem vertexCount_pos {spec : MeshSpec α} {triangulate : Triangulator α} {s : SubMesh α}
    (h : spec.submesh triangulate = .ok s) (htextured : spec.isTextured = true) : 0 < s.vertexCount := by
  cases spec with
  | plane p =>
      cases h
      have hfront : (p.layer 0 p.axis .front).vertexCount = (p.rows + 1) * (p.columns + 1) := by
        simp [Plane.layer, SubMesh.vertexCount, Plane.length_nodes]
      refine Nat.lt_of_lt_of_le ?_ (SubMesh.vertexCount_le_append _ _)
      rw [hfront]
      exact Nat.mul_pos (Nat.succ_pos _) (Nat.succ_pos _)
  | box b =>
      cases h
      simp [Box.mesh, SubMesh.vertexCount, BoxFace.length_directions]
  | camera c => cases htextured
  | sphere s => cases h; exact s.lattice.vertexCount_pos
  | cylinder c =>
      cases h
      exact c.wall.vertexCount_pos.trans_le
        ((SubMesh.vertexCount_le_append _ _).trans (SubMesh.vertexCount_le_append _ _))
  | cone c => cases h; exact c.wall.vertexCount_pos.trans_le (SubMesh.vertexCount_le_append _ _)
  | tube t =>
      cases h
      rw [Tube.mesh_eq_foldl]
      exact (t.wall t.outerRadius .radial).vertexCount_pos.trans_le (SubMesh.vertexCount_le_foldl _ _)
  | extrudedPolyline e => cases htextured

/-- A camera box behind a textured primitive has no texture coordinates, and that is the first fault. -/
theorem validate_append_camera {spec : MeshSpec α} {triangulate : Triangulator α} {s : SubMesh α}
    (h : spec.submesh triangulate = .ok s) (htextured : spec.isTextured = true) (c : Camera α) :
    (s ++ c.mesh).validate =
      .error (.invalidMesh (.texcoordCount s.vertexCount (s.vertexCount + 24))) := by
  have hs := submesh_complete h
  have hc := c.mesh_complete
  have hpos := vertexCount_pos h htextured
  rw [htextured] at hs
  have hvertices : (s ++ c.mesh).vertexCount = s.vertexCount + 24 := by
    rw [SubMesh.vertexCount_append, c.vertexCount_mesh]
  have hnormals : (s ++ c.mesh).normalCount = s.vertexCount + 24 :=
    calc (s ++ c.mesh).normalCount = s.normalCount + c.mesh.normalCount := Array.size_append
      _ = s.vertexCount + 24 := by rw [hs.normals, hc.normals, c.vertexCount_mesh]
  have htexcoords : (s ++ c.mesh).texcoordCount = s.vertexCount :=
    calc (s ++ c.mesh).texcoordCount = s.texcoordCount + c.mesh.texcoordCount := Array.size_append
      _ = s.vertexCount := by rw [hs.texcoords, hc.texcoords, if_pos rfl, if_neg nofun, Nat.add_zero]
  have hfault := (hs.toIndexed.append hc.toIndexed).fault?_eq
  rw [hvertices, hnormals, htexcoords, if_neg (by omega), if_pos (by omega)] at hfault
  unfold SubMesh.validate
  rw [hfault]

end MeshSpec

namespace SubMesh

/-- **Appending is a monoid, and keeps triangles.**  It is associative, and the empty submesh is its unit on both
sides.  Of two valid submeshes the triangles of the first, by the positions of their corners, come before those
of the second; together they are valid if one of them has no vertices, or if both or neither have normals, and
likewise texture coordinates, and in no other case.  So a camera box behind a textured primitive makes it
invalid, whatever the parameters are. -/
theorem append_laws :
    (∀ s t u : SubMesh α, s ++ t ++ u = s ++ (t ++ u)) ∧
      (∀ s : SubMesh α, empty ++ s = s ∧ s ++ empty = s) ∧
      (∀ s t : SubMesh α, s.validate = .ok () → t.validate = .ok () →
        (s ++ t).triangles.map (Triangle.facet? (s ++ t).vertices) = (s.facets ++ t.facets).map some ∧
          s.triangles.map (Triangle.facet? s.vertices) = s.facets.map some ∧
          t.triangles.map (Triangle.facet? t.vertices) = t.facets.map some ∧
          ((s ++ t).validate = .ok () ↔
            s.vertexCount = 0 ∨ t.vertexCount = 0 ∨
              ((s.normalCount = 0 ↔ t.normalCount = 0) ∧ (s.texcoordCount = 0 ↔ t.texcoordCount = 0)))) ∧
      ∀ (spec : MeshSpec α) (triangulate : Triangulator α) (s : SubMesh α) (c : Camera α),
        spec.submesh triangulate = .ok s → spec.isTextured = true →
          (s ++ c.mesh).validate = .error (.invalidMesh (.texcoordCount s.vertexCount (s.vertexCount + 24))) := by
  refine ⟨append_assoc, fun s => ⟨s.empty_append, s.append_empty⟩, fun s t hs ht => ?_,
    fun spec triangulate s c h htextured => MeshSpec.validate_append_camera h htextured c⟩
  have hsi := (validate_eq_ok_iff.mp hs).1
  have hti := (validate_eq_ok_iff.mp ht).1
  refine ⟨?_, hsi.map_facet?, hti.map_facet?, validate_append_iff hs ht⟩
  rw [(hsi.append hti).map_facet?, hsi.facets_append]

/-- A triangle without texture coordinates behind one that has them, and a camera behind a box. -/
theorem append_laws_untextured :
    let s : SubMesh Float :=
      { vertices := Array.replicate 3 0, normals := Array.replicate 3 Vec3.unitZ,
        texcoords := Array.replicate 3 0, indices := #[0, 1, 2] }
    let t : SubMesh Float :=
      { vertices := Array.replicate 4 0, normals := Array.replicate 4 Vec3.unitZ, indices := #[2, 1, 3] }
    (s.validate = .ok () ∧ t.validate = .ok ()) ∧
      (s ++ t).triangles.map (Triangle.facet? (s ++ t).vertices) = (s.facets ++ t.facets).map some ∧
      (s ++ t).validate ≠ .ok () ∧
      ∀ c : Camera Float,
        (Box.unit.mesh ++ c.mesh).validate = .error (.invalidMesh (.texcoordCount 24 48)) := by
  intro s t
  have hs : s.validate = .ok () :=
    validate_eq_ok_iff.mpr ⟨⟨Nat.mod_self 3, by simp [s, vertexCount]⟩, Or.inr rfl, Or.inr rfl⟩
  have ht : t.validate = .ok () :=
    validate_eq_ok_iff.mpr ⟨⟨Nat.mod_self 3, by simp [t, vertexCount]⟩, Or.inr rfl, Or.inl rfl⟩
  obtain ⟨-, -, hjoin, hcamera⟩ := append_laws (α := Float)
  obtain ⟨hfacets, -, -, hvalid⟩ := hjoin s t hs ht
  refine ⟨⟨hs, ht⟩, hfacets, fun h => ?_, fun c => ?_⟩
  · rcases hvalid.mp h with h | h | h
    · exact three_ne_zero h
    · exact four_ne_zero h
    · exact three_ne_zero (h.2.mpr rfl)
  · exact hcamera (.box Box.unit) (fun _ => .error .triangulationUnavailable) Box.unit.mesh c rfl rfl

end SubMesh

end TriMesh
