import TriMesh.Proofs.ClosedExtrusions
import TriMesh.Proofs.ExtrusionLayout

/-! # Outcomes of an extrusion

What an extrusion gives for every list of paths and every answer of the triangulator.

* It succeeds exactly if it is `Prepared`: a path is left, the triangulator answers, every boundary edge
  has its normal, and every triangle names points.
* It fails with the error of the first of these conditions that is not met (`Fault`), the error of the
  triangulator unchanged.
* The solid is laid out as `HasLayout` says: the points at the bottom, the points at the top, then six
  vertices for each boundary edge, in the order of the edges and each with the normal of its own edge.
  The normals are collected by leaving out those that are missing; that they stay with their edges rests
  on the count alone (`outwardNormals_eq_ok_iff`).

Nothing is asked of the scalars. -/

namespace TriMesh

/-! ### Lists -/

section lists
variable {ε β γ : Type}

/-- A traversal fails if an element does, behind elements that do not. -/
theorem mapM_eq_error_of_split {f : β → Except ε γ} {x : ε} {b : β} {after : List β}
    (hb : f b = .error x) : ∀ {before : List β}, (∀ y ∈ before, ∃ z, f y = .ok z) →
      (before ++ b :: after).mapM f = .error x
  | [], _ => by
      rw [List.nil_append, List.mapM_cons, hb]
      rfl
  | y :: before, h => by
      obtain ⟨⟨z, hz⟩, hbefore⟩ := List.forall_mem_cons.mp h
      rw [List.cons_append, List.mapM_cons, hz, mapM_eq_error_of_split hb hbefore]
      rfl

/-- A traversal that fails gives the error of the first element that does. -/
theorem exists_split_of_mapM {f : β → Except ε γ} {x : ε} : ∀ {l : List β}, l.mapM f = .error x →
    ∃ before b after, l = before ++ b :: after ∧ (∀ y ∈ before, ∃ z, f y = .ok z) ∧ f b = .error x
  | [], h => nomatch h
  | y :: l, h => by
      rw [List.mapM_cons] at h
      cases hy : f y with
      | error e =>
          rw [hy] at h
          obtain rfl : e = x := Except.error.inj h
          exact ⟨[], y, l, rfl, by simp, hy⟩
      | ok z =>
          have hl : l.mapM f = .error x := by
            rw [hy] at h
            cases hl : l.mapM f with
            | error e =>
                rw [hl] at h
                exact congrArg Except.error (Except.error.inj h)
            | ok zs =>
                rw [hl] at h
                cases h
          obtain ⟨before, b, after, rfl, hbefore, hb⟩ := exists_split_of_mapM hl
          exact ⟨y :: before, b, after, rfl, List.forall_mem_cons.mpr ⟨⟨z, hy⟩, hbefore⟩, hb⟩

theorem bind_eq_error_iff {y : Except ε β} {f : β → Except ε γ} {x : ε} :
    y >>= f = .error x ↔ y = .error x ∨ ∃ b, y = .ok b ∧ f b = .error x := by
  cases y with
  | error e => simp [bind, Except.bind]
  | ok b => simp [bind, Except.bind]

/-- What a filter keeps is paired with the list it comes from exactly if it keeps all. -/
theorem map_eq_map_some_iff {f : β → Option γ} : ∀ {l : List β} {r : List γ},
    l.map f = r.map some ↔ l.filterMap f = r ∧ r.length = l.length
  | [], r => by
      cases r <;> simp
  | b :: l, r => by
      cases hb : f b with
      | none =>
          have hle := List.length_filterMap_le f l
          rw [List.map_cons, hb, List.filterMap_cons_none hb]
          constructor
          · intro h
            cases r with
            | nil => cases h
            | cons c r => cases (List.cons.inj h).1
          · rintro ⟨rfl, h⟩
            rw [List.length_cons] at h
            omega
      | some c =>
          rw [List.map_cons, hb, List.filterMap_cons_some hb]
          cases r with
          | nil => simp
          | cons d r => simp [map_eq_map_some_iff (l := l), and_assoc]

end lists

namespace Extrusion

variable {α : Type} [Scalar α]

/-! ### Conditions and errors -/

/-- All that an extrusion needs, when the triangulator gives `t`. -/
structure Prepared (e : Extrusion α) (triangulate : Triangulator α) (t : Triangulation α) : Prop where
  /-- A path is left. -/
  paths : tidy e.paths ≠ []
  /-- The paths are triangulated. -/
  triangulated : triangulate (tidy e.paths) = .ok t
  /-- Every boundary edge has its normal. -/
  normals : ∀ d ∈ e.boundary, ∃ n, e.normal? t d = some n
  /-- Every triangle names three points. -/
  inRange : ∀ i ∈ t.triangles, i.Below t.points.size

/-- The first condition that is not met, by its error. -/
inductive Fault (e : Extrusion α) (triangulate : Triangulator α) : MeshError → Prop
  /-- No path is left. -/
  | noPath (hpaths : tidy e.paths = []) :
      Fault e triangulate (.triangulationFailed .noUsablePath)
  /-- The triangulator fails with an error of its own. -/
  | untriangulated {x : MeshError} (hpaths : tidy e.paths ≠ [])
      (ht : triangulate (tidy e.paths) = .error x) : Fault e triangulate x
  /-- Some boundary edge has no normal; the error counts those that have one. -/
  | unresolved {t : Triangulation α} {d : Edge α} (hpaths : tidy e.paths ≠ [])
      (ht : triangulate (tidy e.paths) = .ok t) (hd : d ∈ e.boundary) (hn : e.normal? t d = none) :
      Fault e triangulate (.triangulationFailed
        (.unresolvedNormals (e.boundary.countP fun d => (e.normal? t d).isSome) e.boundary.length))
  /-- A triangle names a missing point; the error tells the first such triangle. -/
  | dangling {t : Triangulation α} {before after : List Triangle} {i : Triangle}
      (hpaths : tidy e.paths ≠ []) (ht : triangulate (tidy e.paths) = .ok t)
      (hn : ∀ d ∈ e.boundary, ∃ n, e.normal? t d = some n)
      (hsplit : t.triangles = before ++ i :: after) (hbefore : ∀ j ∈ before, j.Below t.points.size)
      (hi : ¬i.Below t.points.size) :
      Fault e triangulate
        (.triangulationFailed (.danglingTriangle i.a i.b i.c t.points.size))

/-! ### Stages -/

/-- The normals are one for each edge, each that of the edge at its place. -/
theorem outwardNormals_eq_ok_iff (edges : List (Edge α)) (t : Triangulation α)
    (normals : List (Vec3 α)) :
    outwardNormals edges t = .ok normals ↔
      edges.map (edgeNormal t (Tolerance.pointMatch (extent edges))) = normals.map some := by
  rw [map_eq_map_some_iff]
  unfold outwardNormals
  dsimp only
  split
  · rename_i hlength
    constructor
    · rintro ⟨⟩
      exact ⟨rfl, hlength⟩
    · rintro ⟨rfl, _⟩
      rfl
  · rename_i hlength
    constructor
    · intro h
      cases h
    · rintro ⟨rfl, h⟩
      exact absurd h hlength

theorem outwardNormals_eq_error_iff (edges : List (Edge α)) (t : Triangulation α) (x : MeshError) :
    let normal? := edgeNormal t (Tolerance.pointMatch (extent edges))
    outwardNormals edges t = .error x ↔ (∃ d ∈ edges, normal? d = none) ∧
      x = .triangulationFailed
        (.unresolvedNormals (edges.countP fun d => (normal? d).isSome) edges.length) := by
  intro normal?
  have hcount : (edges.filterMap normal?).length = edges.countP fun d => (normal? d).isSome :=
    List.length_filterMap_eq_countP
  have hall : (edges.filterMap normal?).length = edges.length ↔ ¬∃ d ∈ edges, normal? d = none := by
    rw [hcount, List.countP_eq_length]
    simp [Option.isSome_iff_ne_none]
  unfold outwardNormals
  dsimp only
  split
  · rename_i hlength
    constructor
    · intro h
      cases h
    · rintro ⟨hex, _⟩
      exact absurd hex (hall.mp hlength)
  · rename_i hlength
    constructor
    · rintro ⟨⟩
      exact ⟨Classical.not_not.mp (mt hall.mpr hlength), by rw [← hcount]⟩
    · rintro ⟨_, rfl⟩
      rw [← hcount]

theorem bottomTriangle_of_not_below {t : Triangulation α} {i : Triangle}
    (h : ¬i.Below t.points.size) : bottomTriangle t i =
      .error (.triangulationFailed (.danglingTriangle i.a i.b i.c t.points.size)) := by
  unfold bottomTriangle
  cases hc : t.corners? i with
  | none => rfl
  | some corners => exact absurd (Triangulation.below_of_corners? hc) h

/-- The caps fail with the first triangle that names a missing point. -/
theorem caps_eq_error_iff (t : Triangulation α) (height : α) (x : MeshError) :
    caps t height = .error x ↔ ∃ before i after, t.triangles = before ++ i :: after ∧
      (∀ j ∈ before, j.Below t.points.size) ∧ ¬i.Below t.points.size ∧
      x = .triangulationFailed (.danglingTriangle i.a i.b i.c t.points.size) := by
  have hcaps : caps t height = .error x ↔ t.triangles.mapM (bottomTriangle t) = .error x := by
    unfold caps
    rw [bind_eq_error_iff]
    simp [pure, Except.pure]
  rw [hcaps]
  constructor
  · intro h
    obtain ⟨before, i, after, hsplit, hbefore, hi⟩ := exists_split_of_mapM h
    refine ⟨before, i, after, hsplit, ?_, ?_⟩
    · intro j hj
      obtain ⟨k, hk⟩ := hbefore j hj
      exact below_of_bottomTriangle hk
    · by_cases hbelow : i.Below t.points.size
      · rw [bottomTriangle_of_below hbelow] at hi
        cases hi
      · rw [bottomTriangle_of_not_below hbelow] at hi
        exact ⟨hbelow, (Except.error.inj hi).symm⟩
  · rintro ⟨before, i, after, hsplit, hbefore, hi, rfl⟩
    rw [hsplit]
    exact mapM_eq_error_of_split (bottomTriangle_of_not_below hi) fun j hj =>
      ⟨_, bottomTriangle_of_below (hbefore j hj)⟩

/-! ### Success and failure -/

section outcome
variable (e : Extrusion α) (triangulate : Triangulator α)

/-- The normals exist together exactly if each of them exists. -/
theorem exists_outwardNormals_iff (t : Triangulation α) :
    (∃ normals, outwardNormals e.boundary t = .ok normals) ↔
      ∀ d ∈ e.boundary, ∃ n, e.normal? t d = some n := by
  cases h : outwardNormals e.boundary t with
  | error x =>
      obtain ⟨⟨d, hd, hnone⟩, _⟩ := (outwardNormals_eq_error_iff e.boundary t x).mp h
      refine iff_of_false (by simp) fun hall => ?_
      obtain ⟨n, hn⟩ := hall d hd
      exact absurd (hnone.symm.trans hn) (by simp)
  | ok normals =>
      refine iff_of_true ⟨normals, rfl⟩ fun d hd => ?_
      have hmem : e.normal? t d ∈ normals.map some := by
        rw [← (outwardNormals_eq_ok_iff e.boundary t normals).mp h]
        exact List.mem_map_of_mem hd
      obtain ⟨n, _, hn⟩ := List.mem_map.mp hmem
      exact ⟨n, hn.symm⟩

/-- An extrusion succeeds exactly if all that it needs is there. -/
theorem exists_mesh_iff : (∃ s, e.mesh triangulate = .ok s) ↔ ∃ t, e.Prepared triangulate t := by
  simp only [mesh_eq_ok_iff]
  constructor
  · rintro ⟨s, hpaths, t, normals, ht, hn, hbelow, _⟩
    exact ⟨t, hpaths, ht, (exists_outwardNormals_iff e t).mp ⟨normals, hn⟩, hbelow⟩
  · rintro ⟨t, h⟩
    obtain ⟨normals, hn⟩ := (exists_outwardNormals_iff e t).mpr h.normals
    exact ⟨_, h.paths, t, normals, h.triangulated, hn, h.inRange, rfl⟩

/-- The stages behind the choice of paths. -/
theorem mesh_of_ne_nil (hpaths : tidy e.paths ≠ []) :
    e.mesh triangulate = triangulate (tidy e.paths) >>= fun t =>
      outwardNormals e.boundary t >>= fun normals => caps t e.height >>= fun c =>
        .ok ((walls e.boundary normals e.height).foldl (· ++ ·) c) := by
  unfold mesh boundary
  cases hp : tidy e.paths with
  | nil => exact absurd hp hpaths
  | cons p ps => rfl

/-- An extrusion fails exactly with the error of the first condition that is not met. -/
theorem mesh_eq_error_iff (x : MeshError) :
    e.mesh triangulate = .error x ↔ e.Fault triangulate x := by
  by_cases hpaths : tidy e.paths = []
  · have hmesh : e.mesh triangulate = .error (.triangulationFailed .noUsablePath) := by
      simp only [mesh, hpaths]
    rw [hmesh]
    constructor
    · rintro ⟨⟩
      exact .noPath hpaths
    · intro h
      cases h with
      | noPath => rfl
      | untriangulated hne => exact absurd hpaths hne
      | unresolved hne => exact absurd hpaths hne
      | dangling hne => exact absurd hpaths hne
  · simp only [mesh_of_ne_nil e triangulate hpaths, bind_eq_error_iff, caps_eq_error_iff,
      outwardNormals_eq_error_iff, reduceCtorEq, and_false, exists_false, or_false]
    constructor
    · rintro (ht | ⟨t, ht, ⟨⟨d, hd, hn⟩, rfl⟩ | ⟨normals, hn, _, i, _, hsplit, hbefore, hi, rfl⟩⟩)
      · exact .untriangulated hpaths ht
      · exact .unresolved hpaths ht hd hn
      · exact .dangling hpaths ht ((exists_outwardNormals_iff e t).mp ⟨normals, hn⟩) hsplit hbefore hi
    · intro h
      cases h with
      | noPath h => exact absurd h hpaths
      | untriangulated _ ht => exact Or.inl ht
      | unresolved _ ht hd hn => exact Or.inr ⟨_, ht, Or.inl ⟨⟨_, hd, hn⟩, rfl⟩⟩
      | dangling _ ht hn hsplit hbefore hi =>
          obtain ⟨normals, hok⟩ := (exists_outwardNormals_iff e _).mpr hn
          exact Or.inr ⟨_, ht, Or.inr ⟨normals, hok, _, _, _, hsplit, hbefore, hi, rfl⟩⟩

end outcome

/-- **The outcome of an extrusion.**  It succeeds exactly if it is prepared; it fails with the error of
the first condition that is not met; and the solid is the points at the bottom and at the top and a wall
with its own normal over each boundary edge. -/
theorem mesh_outcome (e : Extrusion α) (triangulate : Triangulator α) :
    ((∃ s, e.mesh triangulate = .ok s) ↔ ∃ t, e.Prepared triangulate t) ∧
      (∀ x, e.mesh triangulate = .error x ↔ e.Fault triangulate x) ∧
      ∀ s t, e.mesh triangulate = .ok s → triangulate (tidy e.paths) = .ok t → e.HasLayout t s := by
  refine ⟨exists_mesh_iff e triangulate, mesh_eq_error_iff e triangulate, ?_⟩
  intro s t hs ht
  obtain ⟨_, u, normals, hu, hn, _, rfl⟩ := (mesh_eq_ok_iff e triangulate s).mp hs
  obtain rfl : t = u := Except.ok.inj (ht.symm.trans hu)
  exact hasLayout_solid ((outwardNormals_eq_ok_iff e.boundary t normals).mp hn)

/-- The layout of the unit square extruded over two triangles. -/
theorem mesh_outcome_square :
    ∃ s, (⟨[square], 2⟩ : Extrusion ℝ).mesh (fun _ => .ok cutSquare) = .ok s ∧
      (⟨[square], 2⟩ : Extrusion ℝ).HasLayout cutSquare s := by
  obtain ⟨s, hs⟩ := exists_mesh_square
  exact ⟨s, hs, (mesh_outcome _ _).2.2 s cutSquare hs rfl⟩

end Extrusion

end TriMesh
