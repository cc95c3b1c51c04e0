import TriMesh.Proofs.ExtrusionParts
import TriMesh.Proofs.Lattices

/-! # Generated meshes are complete

Every generator fills its buffers completely, whatever the scalars and counts are.

* The swept solids are lattices, cap fans and end rings put behind each other; the plane is two
  grids; the boxes are one fixed list of triangles.
* All of them are textured but the camera box and the extrusions.
* Only an extrusion can fail, and what it answers is complete too, for any triangulator. -/

namespace TriMesh

variable {α : Type}

/-- A mesh of one submesh breaks a rule exactly if the submesh does. -/
theorem Mesh.validate_ofSubMesh (name : String) (s : SubMesh α) :
    (ofSubMesh name s).validate = s.validate := by
  unfold Mesh.validate ofSubMesh
  cases h : s.validate with
  | error e => simp [h, bind, Except.bind]
  | ok u => simp [h, bind, Except.bind, pure, Except.pure]

/-! ### Planes -/

theorem Grid.below_of_mem_cell {width height far near col : Nat} (hf : far < height)
    (hn : near < height) (hc : col + 1 < width) :
    ∀ t ∈ cell width far near col, t.Below (height * width) := by
  intro t ht
  have hfar := row_lt hf hc
  have hnear := row_lt hn hc
  simp only [cell, vertex, List.mem_cons, List.not_mem_nil, or_false] at ht
  rcases ht with rfl | rfl
  · simp only [Triangle.Below]
    omega
  · simp only [Triangle.Below]
    omega

theorem Grid.below_of_mem_front {width height : Nat} :
    ∀ t ∈ front width height, t.Below (height * width) := by
  intro t ht
  obtain ⟨row, hr, ht⟩ := List.mem_flatMap.mp ht
  obtain ⟨col, hc, ht⟩ := List.mem_flatMap.mp ht
  rw [List.mem_range] at hr hc
  exact below_of_mem_cell (by omega) (by omega) (by omega) t ht

theorem Grid.below_of_mem_back {width height : Nat} :
    ∀ t ∈ back width height, t.Below (height * width) := by
  intro t ht
  obtain ⟨row, hr, ht⟩ := List.mem_flatMap.mp ht
  obtain ⟨col, hc, ht⟩ := List.mem_flatMap.mp ht
  rw [List.mem_reverse, List.mem_range] at hr
  rw [List.mem_range] at hc
  exact below_of_mem_cell (by omega) (by omega) (by omega) t ht

theorem Grid.below_of_mem_triangles {faces : GridFaces} {width height : Nat} :
    ∀ t ∈ triangles faces width height, t.Below (height * width) := by
  intro t ht
  cases faces with
  | front => exact below_of_mem_front t ht
  | back => exact below_of_mem_back t ht
  | both =>
      rcases List.mem_append.mp ht with ht | ht
      · exact below_of_mem_front t ht
      · exact below_of_mem_back t ht

namespace Plane

theorem length_nodes (p : Plane α) : p.nodes.length = (p.rows + 1) * (p.columns + 1) :=
  length_rows _ _ _

variable [Scalar α]

theorem layer_complete (p : Plane α) (index : Nat) (normal : Vec3 α) (faces : GridFaces) :
    (p.layer index normal faces).Complete true := by
  have hv : (p.layer index normal faces).vertexCount = (p.rows + 1) * (p.columns + 1) := by
    simp [layer, SubMesh.vertexCount, length_nodes]
  refine ⟨SubMesh.indexed_of_flatten rfl ?_, ?_, ?_⟩
  · rw [hv]
    exact Grid.below_of_mem_triangles
  · simp [layer, SubMesh.normalCount, SubMesh.vertexCount]
  · simp [layer, SubMesh.texcoordCount, SubMesh.vertexCount]

theorem mesh_complete (p : Plane α) : p.mesh.Complete true :=
  (p.layer_complete _ _ _).append (p.layer_complete _ _ _)

end Plane

/-! ### Boxes -/

namespace BoxFace

theorem below_of_mem_triangles : ∀ t ∈ triangles, t.Below 24 := by
  unfold Triangle.Below
  decide

theorem length_directions [Scalar α] : (directions : List (Vec3 α)).length = 24 := rfl

end BoxFace

variable [Scalar α]

theorem Box.mesh_complete (b : Box α) : b.mesh.Complete true := by
  have hv : b.mesh.vertexCount = 24 := by
    simp [mesh, SubMesh.vertexCount, BoxFace.length_directions]
  refine ⟨SubMesh.indexed_of_flatten rfl ?_, ?_, ?_⟩
  · rw [hv]
    exact BoxFace.below_of_mem_triangles
  · rw [hv]
    rfl
  · rw [hv]
    rfl

theorem Camera.mesh_complete (c : Camera α) : c.mesh.Complete false := by
  have hv : c.mesh.vertexCount = 24 := by
    simp [mesh, SubMesh.vertexCount, BoxFace.length_directions]
  refine ⟨SubMesh.indexed_of_flatten rfl ?_, ?_, rfl⟩
  · rw [hv]
    exact BoxFace.below_of_mem_triangles
  · rw [hv]
    simp [mesh, SubMesh.normalCount, BoxFace.length_directions]

/-! ### Swept solids -/

theorem Sphere.mesh_complete (s : Sphere α) : s.mesh.Complete true := s.lattice.mesh_complete

theorem Cylinder.mesh_complete (c : Cylinder α) : c.mesh.Complete true :=
  (c.wall.mesh_complete.append (CapFan.mesh_complete _ _ _ _)).append (CapFan.mesh_complete _ _ _ _)

theorem Cone.parts_complete (c : Cone α) : c.parts.Complete true :=
  c.wall.mesh_complete.append (CapFan.mesh_complete _ _ _ _)

theorem Cone.mesh_complete (c : Cone α) : c.mesh.Complete true :=
  c.parts_complete.flattenCornerNormals.recalculateNormals

theorem Quad.mesh_complete (corners : Quad (Vec3 α)) (uvs : Quad (Vec2 α)) (facing : Vec3 α) :
    (corners.mesh uvs facing).Complete true := by
  have hbare : (⟨corners.toArray, Array.replicate 4 facing, uvs.toArray, #[]⟩ :
      SubMesh α).Complete true := ⟨⟨rfl, by simp⟩, rfl, rfl⟩
  have hb (b c : Nat) (h : b < 4 ∧ c < 4) (s : SubMesh α) :
      ∀ t ∈ [s.orient ⟨0, b, c⟩ facing], t.Below 4 := by
    intro t ht
    rw [List.mem_singleton.mp ht]
    exact SubMesh.below_orient s (⟨Nat.succ_pos 3, h⟩ : Triangle.Below ⟨0, b, c⟩ 4) facing
  exact (hbare.addTriangles (hb 1 2 (by omega) _)).addTriangles (hb 2 3 (by omega) _)

namespace Tube

theorem below_of_mem_ringTriangles {segments : Nat} :
    ∀ t ∈ ringTriangles segments, t.Below (2 * (segments + 1)) := by
  intro t ht
  obtain ⟨seg, hs, ht⟩ := List.mem_flatMap.mp ht
  rw [List.mem_range] at hs
  simp only [List.mem_cons, List.not_mem_nil, or_false] at ht
  rcases ht with rfl | rfl
  · simp only [Triangle.Below]
    omega
  · simp only [Triangle.Below]
    omega

theorem endRing_complete (t : Tube α) (z : α) (facing : Vec3 α) :
    (t.endRing z facing).Complete true := by
  unfold endRing
  refine SubMesh.Complete.addTriangles ⟨⟨rfl, by simp⟩, ?_, ?_⟩ ?_
  · simp only [SubMesh.normalCount, SubMesh.vertexCount, Array.size_replicate, List.size_toArray, length_pairs,
      List.length_range]
  · simp only [SubMesh.texcoordCount, SubMesh.vertexCount, List.size_toArray, length_pairs, if_true]
  · intro i hi
    obtain ⟨j, hj, rfl⟩ := List.mem_map.mp hi
    simp only [SubMesh.vertexCount, List.size_toArray, length_pairs, List.length_range]
    exact SubMesh.below_orient _ (below_of_mem_ringTriangles j hj) facing

/-- The two faces of a cut tube where the sweep begins and ends. -/
def cutFaces (t : Tube α) : List (SubMesh α) :=
  if t.isCut then [t.cutFace 0 (-1), t.cutFace t.arc 1] else []

/-- The parts behind the outer wall. -/
def laterParts (t : Tube α) : List (SubMesh α) :=
  [(t.wall t.innerRadius .radialInward).mesh.reverseWindingFrom 0, t.endRing t.halfHeight Vec3.unitZ,
    t.endRing (-t.halfHeight) Vec3.negUnitZ] ++ t.cutFaces

theorem mesh_eq_foldl (t : Tube α) :
    t.mesh = t.laterParts.foldl (· ++ ·) (t.wall t.outerRadius .radial).mesh := by
  unfold mesh laterParts cutFaces
  split
  · rfl
  · rfl

theorem complete_of_mem_laterParts (t : Tube α) : ∀ p ∈ t.laterParts, p.Complete true := by
  have hinner := (t.wall t.innerRadius .radialInward).mesh_complete.reverseWinding
  have hcut : ∀ p ∈ t.cutFaces, p.Complete true := by
    unfold cutFaces
    split
    · simp only [List.forall_mem_cons]
      exact ⟨Quad.mesh_complete _ _ _, Quad.mesh_complete _ _ _, nofun⟩
    · exact nofun
  simp only [laterParts, List.forall_mem_append, List.forall_mem_cons]
  exact ⟨⟨hinner, t.endRing_complete _ _, t.endRing_complete _ _, nofun⟩, hcut⟩

theorem mesh_complete (t : Tube α) : t.mesh.Complete true := by
  rw [mesh_eq_foldl]
  exact (t.wall t.outerRadius .radial).mesh_complete.foldl_append t.complete_of_mem_laterParts

end Tube

/-! ### Specifications -/

namespace MeshSpec

/-- The generator writes texture coordinates. -/
def isTextured : MeshSpec α → Bool
  | .camera _ => false
  | .extrudedPolyline _ => false
  | _ => true

theorem submesh_complete {spec : MeshSpec α} {triangulate : Triangulator α} {s : SubMesh α}
    (h : spec.submesh triangulate = .ok s) : s.Complete spec.isTextured := by
  cases spec with
  | plane p => cases h; exact p.mesh_complete
  | box b => cases h; exact b.mesh_complete
  | camera c => cases h; exact c.mesh_complete
  | sphere s => cases h; exact s.mesh_complete
  | cylinder c => cases h; exact c.mesh_complete
  | cone c => cases h; exact c.mesh_complete
  | tube t => cases h; exact t.mesh_complete
  | extrudedPolyline e => exact Extrusion.mesh_complete h

theorem build_eq_ok_iff {spec : MeshSpec α} {name : String} {triangulate : Triangulator α}
    {m : Mesh α} :
    spec.build name triangulate = .ok m ↔
      ∃ s, spec.submesh triangulate = .ok s ∧ m = Mesh.ofSubMesh name s := by
  unfold build
  cases spec.submesh triangulate with
  | error e => simp [Except.map]
  | ok s => simp [Except.map, eq_comm]

/-- **Whatever is built is complete**, over any scalars, for any counts and any triangulator: one
submesh that breaks no rule, with one normal for each vertex, and with one texture coordinate for
each vertex or none, as the generator says.  Only an extrusion can fail to build. -/
theorem build_complete (spec : MeshSpec α) (name : String) (triangulate : Triangulator α) :
    match spec.build name triangulate with
    | .ok m => m.name = name ∧ m.validate = .ok () ∧ ∃ s, m.submeshes = #[s] ∧
        s.normalCount = s.vertexCount ∧
        s.texcoordCount = if spec.isTextured then s.vertexCount else 0
    | .error _ => ∃ e, spec = .extrudedPolyline e := by
  cases hs : spec.submesh triangulate with
  | error x =>
      have hb : spec.build name triangulate = .error x := by
        unfold build
        rw [hs]
        rfl
      rw [hb]
      cases spec with
      | extrudedPolyline e => exact ⟨e, rfl⟩
      | _ => cases hs
  | ok s =>
      have hb : spec.build name triangulate = .ok (Mesh.ofSubMesh name s) :=
        build_eq_ok_iff.mpr ⟨s, hs, rfl⟩
      have hc := submesh_complete hs
      rw [hb]
      refine ⟨rfl, ?_, s, rfl, hc.normals, hc.texcoords⟩
      rw [Mesh.validate_ofSubMesh]
      exact hc.validate_eq_ok

end MeshSpec

end TriMesh
