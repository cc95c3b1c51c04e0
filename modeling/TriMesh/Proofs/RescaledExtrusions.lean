import TriMesh.Proofs.ClosedExtrusions
import TriMesh.Proofs.PathOrientations

/-! # Rescaled extrusions

An extrusion does not depend on where its paths are and how large they are.  Scalars are exact.

* A `Rescaling` enlarges by a positive factor and moves in the plane; it acts on points, edges, paths,
  triangulations and solids, in a solid also along the third axis.
* Each stage of an extrusion commutes with it: tidying (`tidy_map`), the matching tolerance, which grows
  with the extent (`extent_map`), the third corner that is found first (`opposite_edge`), normals, which
  stay as they are (`edgeNormal_edge`), caps (`caps_triangulation`) and walls (`wall_edge`).
* So the rescaled extrusion over the rescaled triangulation fails with the same error or is the rescaled
  solid, with the same normals and indices (`mesh_rescaled`). -/

namespace TriMesh

/-- A positive factor and an offset in the plane. -/
structure Rescaling where
  /-- How many times larger things become. -/
  factor : ℝ
  /-- Where the origin goes. -/
  offset : Vec2 ℝ
  /-- Nothing is turned over or collapsed. -/
  factor_pos : 0 < factor

namespace Rescaling

variable (σ : Rescaling)

/-! ### Action -/

/-- A point of the plane enlarged and moved. -/
noncomputable def point (p : Vec2 ℝ) : Vec2 ℝ := p * σ.factor + σ.offset

/-- A point of space enlarged, and moved as the plane is. -/
noncomputable def lift (v : Vec3 ℝ) : Vec3 ℝ :=
  ⟨v.x * σ.factor + σ.offset.x, v.y * σ.factor + σ.offset.y, v.z * σ.factor⟩

/-- An edge by its ends. -/
noncomputable def edge (e : Edge ℝ) : Edge ℝ := ⟨σ.point e.start, σ.point e.stop⟩

/-- The same triangles over rescaled points. -/
noncomputable def triangulation (t : Triangulation ℝ) : Triangulation ℝ :=
  { t with points := t.points.map σ.point }

/-- Rescaled paths swept to the rescaled height. -/
noncomputable def extrusion (e : Extrusion ℝ) : Extrusion ℝ :=
  ⟨e.paths.map (List.map σ.point), e.height * σ.factor⟩

/-- The same normals and indices over rescaled vertices. -/
noncomputable def subMesh (s : SubMesh ℝ) : SubMesh ℝ := { s with vertices := s.vertices.map σ.lift }

/-! ### Points -/

theorem point_sub (p q : Vec2 ℝ) : σ.point p - σ.point q = (p - q) * σ.factor := by
  apply Vec2.ext
  · simp only [point, Vec2.sub_x, Vec2.add_x, Vec2.mul_x]
    ring
  · simp only [point, Vec2.sub_y, Vec2.add_y, Vec2.mul_y]
    ring

theorem point_inj {p q : Vec2 ℝ} : σ.point p = σ.point q ↔ p = q := by
  constructor
  · intro h
    have hx := congrArg Vec2.x h
    have hy := congrArg Vec2.y h
    simp only [point, Vec2.add_x, Vec2.add_y, Vec2.mul_x, Vec2.mul_y, add_left_inj] at hx hy
    exact Vec2.ext (mul_right_cancel₀ σ.factor_pos.ne' hx) (mul_right_cancel₀ σ.factor_pos.ne' hy)
  · rintro rfl
    rfl

theorem point_beq (p q : Vec2 ℝ) : (σ.point p == σ.point q) = (p == q) := by
  rw [Bool.eq_iff_iff, Vec2.beq_iff, Vec2.beq_iff, σ.point_inj]

theorem lift_extend (p : Vec2 ℝ) (z : ℝ) :
    σ.lift (p.extend z) = (σ.point p).extend (z * σ.factor) := rfl

/-- Lengths grow by the factor. -/
theorem length_mul (v : Vec2 ℝ) : (v * σ.factor).length = v.length * σ.factor := by
  have hsquare : (v * σ.factor).dot (v * σ.factor) = v.dot v * σ.factor ^ 2 := by
    simp only [Vec2.dot_eq, Vec2.mul_x, Vec2.mul_y]
    ring
  simp only [Vec2.length, Scalar.real_sqrt]
  rw [hsquare, Real.sqrt_mul' _ (sq_nonneg _), Real.sqrt_sq σ.factor_pos.le]

theorem distance_point (p q : Vec2 ℝ) : (σ.point p).distance (σ.point q) = p.distance q * σ.factor := by
  simp only [Vec2.distance]
  rw [point_sub, length_mul]

theorem monotone_coordinate (c : ℝ) : Monotone fun x : ℝ => x * σ.factor + c := fun _ _ h =>
  add_le_add_left (mul_le_mul_of_nonneg_right h σ.factor_pos.le) c

theorem point_min (p q : Vec2 ℝ) : (σ.point p).min (σ.point q) = σ.point (p.min q) := by
  apply Vec2.ext
  · simp only [Vec2.min, Scalar.real_min]
    exact (σ.monotone_coordinate σ.offset.x).map_min.symm
  · simp only [Vec2.min, Scalar.real_min]
    exact (σ.monotone_coordinate σ.offset.y).map_min.symm

theorem point_max (p q : Vec2 ℝ) : (σ.point p).max (σ.point q) = σ.point (p.max q) := by
  apply Vec2.ext
  · simp only [Vec2.max, Scalar.real_max]
    exact (σ.monotone_coordinate σ.offset.x).map_max.symm
  · simp only [Vec2.max, Scalar.real_max]
    exact (σ.monotone_coordinate σ.offset.y).map_max.symm

/-! ### Paths and edges -/

theorem dropClosing_map (path : Path ℝ) :
    Path.dropClosing (path.map σ.point) = path.dropClosing.map σ.point := by
  unfold Path.dropClosing
  rw [List.head?_map, List.getLast?_map, List.length_map]
  cases path.head? with
  | none => rfl
  | some first =>
      cases path.getLast? with
      | none => rfl
      | some last =>
          simp only [Option.map_some, σ.point_beq]
          rw [apply_ite (List.map σ.point), List.map_dropLast]

theorem tidy_map (paths : List (Path ℝ)) :
    Extrusion.tidy (paths.map (List.map σ.point)) =
      (Extrusion.tidy paths).map (List.map σ.point) := by
  simp only [Extrusion.tidy]
  induction paths with
  | nil => rfl
  | cons path paths ih =>
      simp only [List.map_cons, List.filter_cons, ih, σ.dropClosing_map, List.length_map]
      split <;> rfl

theorem edges_map (path : Path ℝ) :
    Path.edges (path.map σ.point) = (Path.edges path).map σ.edge := by
  cases path with
  | nil => rfl
  | cons p rest =>
      change List.zipWith Edge.mk ((p :: rest).map σ.point) (rest.map σ.point ++ [σ.point p]) = _
      rw [← List.map_singleton, ← List.map_append, List.zipWith_map, Path.edges, List.map_zipWith]
      rfl

theorem boundaryEdges_map (paths : List (Path ℝ)) :
    boundaryEdges (paths.map (List.map σ.point)) = (boundaryEdges paths).map σ.edge := by
  simp only [boundaryEdges, List.flatMap_map, List.map_flatMap, σ.edges_map]

theorem widen_edge (box : Vec2 ℝ × Vec2 ℝ) (e : Edge ℝ) :
    Extrusion.widen (box.map σ.point σ.point) (σ.edge e) =
      (Extrusion.widen box e).map σ.point σ.point := by
  simp only [Extrusion.widen, edge, Prod.map, point_min, point_max]

theorem boxAround_map (e : Edge ℝ) (edges : List (Edge ℝ)) :
    Extrusion.boxAround (σ.edge e) (edges.map σ.edge) =
      (Extrusion.boxAround e edges).map σ.point σ.point := by
  unfold Extrusion.boxAround
  rw [← List.map_cons, List.foldl_map]
  exact @List.foldl_hom _ _ _ (Prod.map σ.point σ.point) Extrusion.widen
    (fun box f => Extrusion.widen box (σ.edge f)) (e :: edges) (e.start, e.start) σ.widen_edge

/-- The extent grows by the factor, and the matching tolerance with it. -/
theorem extent_map (edges : List (Edge ℝ)) :
    Extrusion.extent (edges.map σ.edge) = Extrusion.extent edges * σ.factor := by
  cases edges with
  | nil => exact (zero_mul _).symm
  | cons e edges =>
      rw [List.map_cons, Extrusion.extent_cons, Extrusion.extent_cons, boxAround_map]
      simp only [Prod.map, point_sub, length_mul]

theorem pointMatch_map (edges : List (Edge ℝ)) :
    Tolerance.pointMatch (Extrusion.extent (edges.map σ.edge)) =
      Tolerance.pointMatch (Extrusion.extent edges) * σ.factor := by
  simp only [Tolerance.pointMatch]
  rw [extent_map, mul_right_comm]

/-! ### Third corners and normals -/

theorem close_point (tolerance : ℝ) (p q : Vec2 ℝ) :
    Extrusion.close (tolerance * σ.factor) (σ.point p) (σ.point q) =
      Extrusion.close tolerance p q := by
  simp only [Extrusion.close]
  rw [distance_point, decide_eq_decide]
  exact mul_le_mul_iff_of_pos_right σ.factor_pos

theorem thirdCorner_point (corners : Vec2 ℝ × Vec2 ℝ × Vec2 ℝ) (p q : Vec2 ℝ) (tolerance : ℝ) :
    Extrusion.thirdCorner (σ.point corners.1, σ.point corners.2.1, σ.point corners.2.2) (σ.point p)
        (σ.point q) (tolerance * σ.factor) =
      (Extrusion.thirdCorner corners p q tolerance).map σ.point := by
  have hfind (r : Vec2 ℝ) (list : List (Vec2 ℝ)) :
      (list.map σ.point).findIdx? (Extrusion.close (tolerance * σ.factor) · (σ.point r)) =
        list.findIdx? (Extrusion.close tolerance · r) := by
    rw [List.findIdx?_map]
    congr 1
    funext x
    exact σ.close_point tolerance x r
  simp only [Extrusion.thirdCorner]
  have hlist : [σ.point corners.1, σ.point corners.2.1, σ.point corners.2.2] =
      [corners.1, corners.2.1, corners.2.2].map σ.point := rfl
  rw [hlist]
  generalize [corners.1, corners.2.1, corners.2.2] = list
  rw [hfind, hfind]
  cases list.findIdx? (Extrusion.close tolerance · p) with
  | none => rfl
  | some i =>
      cases list.findIdx? (Extrusion.close tolerance · q) with
      | none => rfl
      | some j =>
          simp only [Option.bind_eq_bind, Option.bind_some, List.getElem?_map]
          split <;> rfl

theorem corners?_triangulation (t : Triangulation ℝ) (i : Triangle) :
    (σ.triangulation t).corners? i =
      (t.corners? i).map fun corners =>
        (σ.point corners.1, σ.point corners.2.1, σ.point corners.2.2) := by
  simp only [Triangulation.corners?, triangulation, Array.getElem?_map]
  cases t.points[i.a]? <;> cases t.points[i.b]? <;> cases t.points[i.c]? <;> rfl

/-- The third corner that is found first is the same one. -/
theorem opposite_edge (t : Triangulation ℝ) (e : Edge ℝ) (tolerance : ℝ) :
    Extrusion.opposite (σ.triangulation t) (σ.edge e) (tolerance * σ.factor) =
      (Extrusion.opposite t e tolerance).map σ.point := by
  simp only [Extrusion.opposite, List.map_findSome?]
  change t.triangles.findSome? _ = _
  congr 1
  funext i
  simp only [Function.comp_apply, σ.corners?_triangulation, Option.bind_eq_bind]
  cases t.corners? i with
  | none => rfl
  | some corners => exact σ.thirdCorner_point corners e.start e.stop tolerance

theorem isOutward_edge {e : Edge ℝ} {r : Vec2 ℝ} {n : Vec3 ℝ} :
    Extrusion.IsOutward (σ.edge e) (σ.point r) n ↔ Extrusion.IsOutward e r n := by
  have hdot (p q : Vec2 ℝ) : n.dot ((σ.point p - σ.point q).extend 0) =
      n.dot ((p - q).extend 0) * σ.factor := by
    rw [point_sub]
    simp only [Vec3.dot_eq, Vec2.extend, Vec2.mul_x, Vec2.mul_y]
    ring
  have hacross : n.dot ((σ.point e.stop - σ.point e.start).extend 0) = 0 ↔
      n.dot ((e.stop - e.start).extend 0) = 0 := by
    rw [hdot, mul_eq_zero_iff_right σ.factor_pos.ne']
  have haway (p : Vec2 ℝ) : 0 < n.dot ((σ.point p - σ.point r).extend 0) ↔
      0 < n.dot ((p - r).extend 0) := by
    rw [hdot, mul_pos_iff_of_pos_right σ.factor_pos]
  constructor
  · intro h
    exact ⟨h.unit, h.flat, hacross.mp h.across, (haway _).mp h.start, (haway _).mp h.stop⟩
  · intro h
    exact ⟨h.unit, h.flat, hacross.mpr h.across, (haway _).mpr h.start, (haway _).mpr h.stop⟩

/-- Normals stay as they are. -/
theorem edgeNormal_edge (t : Triangulation ℝ) (e : Edge ℝ) (tolerance : ℝ) :
    Extrusion.edgeNormal (σ.triangulation t) (tolerance * σ.factor) (σ.edge e) =
      Extrusion.edgeNormal t tolerance e := by
  -- a normal is known by what it satisfies, so the unit vectors it is made from need no look
  apply Option.ext
  intro n
  simp only [Extrusion.edgeNormal_eq_some_iff, opposite_edge, Option.map_eq_some_iff]
  refine and_congr (not_congr σ.point_inj) ⟨?_, ?_⟩
  · rintro ⟨_, ⟨r, hr, rfl⟩, hn⟩
    exact ⟨r, hr, σ.isOutward_edge.mp hn⟩
  · rintro ⟨r, hr, hn⟩
    exact ⟨_, ⟨r, hr, rfl⟩, σ.isOutward_edge.mpr hn⟩

theorem outwardNormals_map (edges : List (Edge ℝ)) (t : Triangulation ℝ) :
    Extrusion.outwardNormals (edges.map σ.edge) (σ.triangulation t) =
      Extrusion.outwardNormals edges t := by
  simp only [Extrusion.outwardNormals, List.filterMap_map, List.length_map, σ.pointMatch_map]
  have hnormal : Extrusion.edgeNormal (σ.triangulation t)
      (Tolerance.pointMatch (Extrusion.extent edges) * σ.factor) ∘ σ.edge =
      Extrusion.edgeNormal t (Tolerance.pointMatch (Extrusion.extent edges)) :=
    funext fun e => σ.edgeNormal_edge t e _
  rw [hnormal]

/-! ### Caps and walls -/

theorem bottomTriangle_triangulation (t : Triangulation ℝ) (i : Triangle) :
    Extrusion.bottomTriangle (σ.triangulation t) i = Extrusion.bottomTriangle t i := by
  simp only [Extrusion.bottomTriangle, σ.corners?_triangulation]
  cases t.corners? i with
  | none => simp only [Option.map_none, triangulation, Array.size_map]
  | some corners =>
      obtain ⟨a, b, c⟩ := corners
      have harea : (σ.point b - σ.point a).perpDot (σ.point c - σ.point a) =
          (b - a).perpDot (c - a) * (σ.factor * σ.factor) := by
        rw [point_sub, point_sub]
        simp only [Vec2.perpDot_eq, Vec2.mul_x, Vec2.mul_y]
        ring
      simp only [Option.map_some, harea,
        mul_pos_iff_of_pos_right (mul_pos σ.factor_pos σ.factor_pos)]

theorem caps_triangulation (t : Triangulation ℝ) (height : ℝ) :
    Extrusion.caps (σ.triangulation t) (height * σ.factor) =
      (Extrusion.caps t height).map σ.subMesh := by
  have hbottom : Extrusion.bottomTriangle (σ.triangulation t) = Extrusion.bottomTriangle t :=
    funext fun i => σ.bottomTriangle_triangulation t i
  simp only [Extrusion.caps, hbottom]
  change (t.triangles.mapM (Extrusion.bottomTriangle t) >>= _) = _
  cases t.triangles.mapM (Extrusion.bottomTriangle t) with
  | error x => rfl
  | ok bottom =>
      simp only [bind, Except.bind, pure, Except.pure, Except.map, subMesh, triangulation, Array.size_map,
        Array.map_append, Array.map_map, Function.comp_def, lift_extend, zero_mul]

/-- A wall keeps its diagonal. -/
theorem wall_edge (e : Edge ℝ) (normal : Vec3 ℝ) (height : ℝ) :
    Extrusion.wall (σ.edge e) normal (height * σ.factor) =
      σ.subMesh (Extrusion.wall e normal height) := by
  have hside : (((σ.point e.stop).extend 0 - (σ.point e.start).extend 0).cross normal).z =
      ((e.stop.extend 0 - e.start.extend 0).cross normal).z * σ.factor := by
    simp only [Vec3.cross_z, Vec2.extend, point, Vec3.sub_x, Vec3.sub_y, Vec2.add_x, Vec2.add_y,
      Vec2.mul_x, Vec2.mul_y]
    ring
  simp only [Extrusion.wall, edge, subMesh, hside, mul_pos_iff_of_pos_right σ.factor_pos,
    apply_ite (Array.map σ.lift)]
  simp only [List.map_toArray, List.map_cons, List.map_nil, lift_extend, zero_mul]

/-! ### The solid -/

theorem subMesh_append (s other : SubMesh ℝ) :
    σ.subMesh (s ++ other) = σ.subMesh s ++ σ.subMesh other := by
  change σ.subMesh (s.append other) = (σ.subMesh s).append (σ.subMesh other)
  simp only [subMesh, SubMesh.append, SubMesh.vertexCount, Array.map_append, Array.size_map]

theorem walls_map (edges : List (Edge ℝ)) (normals : List (Vec3 ℝ)) (height : ℝ) :
    Extrusion.walls (edges.map σ.edge) normals (height * σ.factor) =
      (Extrusion.walls edges normals height).map σ.subMesh := by
  simp only [Extrusion.walls, List.zipWith_map_left, List.map_zipWith, σ.wall_edge]

theorem foldl_append_map (pieces : List (SubMesh ℝ)) (s : SubMesh ℝ) :
    (pieces.map σ.subMesh).foldl (· ++ ·) (σ.subMesh s) =
      σ.subMesh (pieces.foldl (· ++ ·) s) := by
  rw [List.foldl_map]
  exact List.foldl_hom σ.subMesh fun s other => (σ.subMesh_append s other).symm

theorem boundary_extrusion (e : Extrusion ℝ) : (σ.extrusion e).boundary = e.boundary.map σ.edge := by
  simp only [Extrusion.boundary, extrusion, tidy_map, boundaryEdges_map]

/-- Over a rescaled triangulation the outcome is the rescaled one. -/
theorem mesh_extrusion {e : Extrusion ℝ} {triangulate triangulate' : Triangulator ℝ}
    (h : triangulate' ((Extrusion.tidy e.paths).map (List.map σ.point)) =
      (triangulate (Extrusion.tidy e.paths)).map σ.triangulation) :
    (σ.extrusion e).mesh triangulate' = (e.mesh triangulate).map σ.subMesh := by
  have htidy : Extrusion.tidy (σ.extrusion e).paths =
      (Extrusion.tidy e.paths).map (List.map σ.point) := σ.tidy_map e.paths
  by_cases hpaths : Extrusion.tidy e.paths = []
  · simp only [Extrusion.mesh, htidy, hpaths]
    rfl
  · have hpaths' : Extrusion.tidy (σ.extrusion e).paths ≠ [] := by
      rw [htidy]
      exact List.map_eq_nil_iff.not.mpr hpaths
    rw [Extrusion.mesh_of_ne_nil _ _ hpaths, Extrusion.mesh_of_ne_nil _ _ hpaths', htidy, h,
      boundary_extrusion]
    cases triangulate (Extrusion.tidy e.paths) with
    | error x => rfl
    | ok t =>
        have hcaps : Extrusion.caps (σ.triangulation t) (σ.extrusion e).height =
            (Extrusion.caps t e.height).map σ.subMesh := σ.caps_triangulation t e.height
        have hwalls (normals : List (Vec3 ℝ)) :
            Extrusion.walls (e.boundary.map σ.edge) normals (σ.extrusion e).height =
              (Extrusion.walls e.boundary normals e.height).map σ.subMesh :=
          σ.walls_map e.boundary normals e.height
        simp only [Except.map, bind, Except.bind, outwardNormals_map, hcaps, hwalls]
        cases Extrusion.outwardNormals e.boundary t with
        | error x => rfl
        | ok normals =>
            cases Extrusion.caps t e.height with
            | error x => rfl
            | ok c => exact congrArg Except.ok (σ.foldl_append_map _ c)

/-- **An extrusion is the same at every place and in every size.**  Over a rescaled triangulation the
rescaled paths fail with the same error, or have the same normals and indices over rescaled vertices. -/
theorem mesh_rescaled {e : Extrusion ℝ} {triangulate triangulate' : Triangulator ℝ}
    (h : triangulate' ((Extrusion.tidy e.paths).map (List.map σ.point)) =
      (triangulate (Extrusion.tidy e.paths)).map σ.triangulation) :
    (∃ x, e.mesh triangulate = .error x ∧ (σ.extrusion e).mesh triangulate' = .error x) ∨
      ∃ s s', e.mesh triangulate = .ok s ∧ (σ.extrusion e).mesh triangulate' = .ok s' ∧
        s'.vertices = s.vertices.map σ.lift ∧ s'.normals = s.normals ∧
        s'.texcoords = s.texcoords ∧ s'.indices = s.indices := by
  rw [σ.mesh_extrusion h]
  cases e.mesh triangulate with
  | error x => exact Or.inl ⟨x, rfl, rfl⟩
  | ok s => exact Or.inr ⟨s, σ.subMesh s, rfl, rfl, rfl, rfl, rfl, rfl⟩

/-- Far below any fixed threshold, and beside the origin. -/
noncomputable def tiny : Rescaling := ⟨1 / 10 ^ 12, ⟨1, -1⟩, by positivity⟩

/-- A tiny square is extruded like the unit square. -/
theorem mesh_rescaled_square :
    ∃ s s', (⟨[Extrusion.square], 2⟩ : Extrusion ℝ).mesh (fun _ => .ok Extrusion.cutSquare) = .ok s ∧
      (tiny.extrusion ⟨[Extrusion.square], 2⟩).mesh
        (fun _ => .ok (tiny.triangulation Extrusion.cutSquare)) = .ok s' ∧
      s'.vertices = s.vertices.map tiny.lift ∧ s'.normals = s.normals ∧
      s'.texcoords = s.texcoords ∧ s'.indices = s.indices := by
  obtain ⟨s, hs⟩ := Extrusion.exists_mesh_square
  have hsame := @mesh_rescaled tiny ⟨[Extrusion.square], 2⟩ (fun _ => .ok Extrusion.cutSquare)
    (fun _ => .ok (tiny.triangulation Extrusion.cutSquare)) rfl
  rcases hsame with ⟨x, hx, _⟩ | hok
  · rw [hs] at hx
    cases hx
  · exact hok

end Rescaling

end TriMesh
