import TriMesh.Proofs.Buffers

/-! # The parts of an extrusion

When the stages of an extrusion succeed, and with what.

* The caps exist exactly if every triangle names three points (`caps_eq_ok_iff`); they are then the
  submesh `capMesh`, in which each triangle is wound to face down at the bottom and up at the top.
* The solid exists exactly if a path is left, the triangulator answers, every edge has its outward
  normal and the caps exist (`mesh_eq_ok_iff`); it is the caps followed by one wall for each edge.
* Caps and walls are complete without texture, and so is the solid (`mesh_complete`). -/

namespace TriMesh

/-! ### Lists under a test that may fail -/

section lists
variable {ε β γ : Type} {f : β → Except ε γ}

theorem mapM_eq_ok {g : β → γ} : ∀ {l : List β}, (∀ x ∈ l, f x = .ok (g x)) →
    l.mapM f = .ok (l.map g)
  | [], _ => rfl
  | x :: l, h => by
      have ih := mapM_eq_ok (l := l) fun y hy => h y (List.mem_cons_of_mem x hy)
      rw [List.mapM_cons, h x List.mem_cons_self, ih]
      rfl

theorem exists_ok_of_mapM : ∀ {l : List β} {r : List γ}, l.mapM f = .ok r →
    ∀ x ∈ l, ∃ y, f x = .ok y
  | [], _, _, x, hx => by simp at hx
  | y :: l, r, h, x, hx => by
      rw [List.mapM_cons] at h
      cases hy : f y with
      | error e => simp [hy, bind, Except.bind] at h
      | ok z =>
          cases hl : l.mapM f with
          | error e => simp [hy, hl, bind, Except.bind] at h
          | ok zs =>
              rcases List.mem_cons.mp hx with rfl | hx
              · exact ⟨z, hy⟩
              · exact exists_ok_of_mapM hl x hx

end lists

variable {α : Type}

/-! ### Triangles of a triangulation -/

theorem Triangulation.exists_corners? {t : Triangulation α} {i : Triangle}
    (h : i.Below t.points.size) : ∃ corners, t.corners? i = some corners := by
  unfold Triangulation.corners?
  rw [Array.getElem?_eq_getElem h.1, Array.getElem?_eq_getElem h.2.1,
    Array.getElem?_eq_getElem h.2.2]
  exact ⟨_, rfl⟩

theorem Triangulation.below_of_corners? {t : Triangulation α} {i : Triangle}
    {corners : Vec2 α × Vec2 α × Vec2 α} (h : t.corners? i = some corners) :
    i.Below t.points.size := by
  unfold Triangulation.corners? at h
  simp only [Option.bind_eq_bind, Option.pure_def, Option.bind_eq_some_iff] at h
  obtain ⟨a, ha, b, hb, c, hc, _⟩ := h
  exact ⟨(Array.getElem?_eq_some_iff.mp ha).1, (Array.getElem?_eq_some_iff.mp hb).1,
    (Array.getElem?_eq_some_iff.mp hc).1⟩

variable [Scalar α]

/-- The triangle, turned over if its corners run counter-clockwise in the plane. -/
def Triangulation.downward (t : Triangulation α) (i : Triangle) : Triangle :=
  match t.corners? i with
  | some (a, b, c) => if 0 < (b - a).perpDot (c - a) then i.flip else i
  | none => i

theorem Triangulation.below_downward {t : Triangulation α} {i : Triangle} {n : Nat}
    (h : i.Below n) : (t.downward i).Below n := by
  unfold Triangulation.downward
  cases t.corners? i with
  | none => exact h
  | some corners =>
      dsimp only
      split
      · exact h.flip
      · exact h

namespace Extrusion

theorem bottomTriangle_of_below {t : Triangulation α} {i : Triangle} (h : i.Below t.points.size) :
    bottomTriangle t i = .ok (t.downward i) := by
  unfold bottomTriangle Triangulation.downward
  obtain ⟨corners, hc⟩ := Triangulation.exists_corners? h
  rw [hc]

theorem below_of_bottomTriangle {t : Triangulation α} {i j : Triangle}
    (h : bottomTriangle t i = .ok j) : i.Below t.points.size := by
  unfold bottomTriangle at h
  cases hc : t.corners? i with
  | none => simp [hc] at h
  | some corners => exact Triangulation.below_of_corners? hc

/-! ### Caps -/

/-- Both caps of a triangulation whose triangles all name points. -/
def capMesh (t : Triangulation α) (height : α) : SubMesh α :=
  let n := t.points.size
  { vertices := t.points.map (·.extend 0) ++ t.points.map (·.extend height)
    normals := Array.replicate n Vec3.negUnitZ ++ Array.replicate n Vec3.unitZ
    indices := (Triangle.flatten
      ((t.triangles.map t.downward).flatMap fun i => [i, i.flip.shift n])).toArray }

/-- The caps exist exactly if every triangle names three points. -/
theorem caps_eq_ok_iff (t : Triangulation α) (height : α) (s : SubMesh α) :
    caps t height = .ok s ↔
      (∀ i ∈ t.triangles, i.Below t.points.size) ∧ s = capMesh t height := by
  have hok (h : ∀ i ∈ t.triangles, i.Below t.points.size) :
      caps t height = .ok (capMesh t height) := by
    unfold caps
    rw [mapM_eq_ok fun i hi => bottomTriangle_of_below (h i hi)]
    rfl
  constructor
  · intro h
    have hb : ∀ i ∈ t.triangles, i.Below t.points.size := by
      cases hm : t.triangles.mapM (bottomTriangle t) with
      | error e => simp [caps, hm, bind, Except.bind] at h
      | ok bottom =>
          intro i hi
          obtain ⟨j, hj⟩ := exists_ok_of_mapM hm i hi
          exact below_of_bottomTriangle hj
    rw [hok hb] at h
    exact ⟨hb, (Except.ok.inj h).symm⟩
  · rintro ⟨hb, rfl⟩
    exact hok hb

theorem vertexCount_capMesh (t : Triangulation α) (height : α) :
    (capMesh t height).vertexCount = t.points.size + t.points.size := by
  simp [capMesh, SubMesh.vertexCount]

theorem capMesh_complete {t : Triangulation α} (h : ∀ i ∈ t.triangles, i.Below t.points.size)
    (height : α) : (capMesh t height).Complete false := by
  refine ⟨SubMesh.indexed_of_flatten rfl ?_, ?_, rfl⟩
  · intro i hi
    rw [vertexCount_capMesh]
    obtain ⟨k, hk, hik⟩ := List.mem_flatMap.mp hi
    obtain ⟨j, hj, rfl⟩ := List.mem_map.mp hk
    have hd : (t.downward j).Below t.points.size := Triangulation.below_downward (h j hj)
    simp only [List.mem_cons, List.not_mem_nil, or_false] at hik
    rcases hik with rfl | rfl
    · exact ⟨Nat.lt_add_left _ hd.1, Nat.lt_add_left _ hd.2.1, Nat.lt_add_left _ hd.2.2⟩
    · exact hd.flip.shift t.points.size
  · rw [vertexCount_capMesh]
    simp [capMesh, SubMesh.normalCount]

/-! ### Walls and the solid -/

theorem wall_complete (e : Edge α) (normal : Vec3 α) (height : α) :
    (wall e normal height).Complete false := by
  have hv : (wall e normal height).vertexCount = 6 := by
    simp only [wall, SubMesh.vertexCount]
    split <;> rfl
  refine ⟨⟨by simp [wall, SubMesh.indexCount], ?_⟩, ?_, rfl⟩
  · intro i hi
    simp only [wall, List.mem_toArray, List.mem_cons, List.not_mem_nil, or_false] at hi
    omega
  · rw [hv]
    simp [wall, SubMesh.normalCount]

theorem walls_complete (edges : List (Edge α)) (normals : List (Vec3 α)) (height : α) :
    ∀ p ∈ walls edges normals height, p.Complete false := by
  intro p hp
  obtain ⟨i, hi, rfl⟩ := List.mem_iff_getElem.mp hp
  simp only [walls, List.getElem_zipWith]
  exact wall_complete _ _ _

/-- The solid exists exactly if every stage before it does, and consists of caps and walls. -/
theorem mesh_eq_ok_iff (e : Extrusion α) (triangulate : Triangulator α) (s : SubMesh α) :
    e.mesh triangulate = .ok s ↔
      tidy e.paths ≠ [] ∧ ∃ t normals,
        triangulate (tidy e.paths) = .ok t ∧
        outwardNormals (boundaryEdges (tidy e.paths)) t = .ok normals ∧
        (∀ i ∈ t.triangles, i.Below t.points.size) ∧
        s = (walls (boundaryEdges (tidy e.paths)) normals e.height).foldl (· ++ ·)
          (capMesh t e.height) := by
  unfold mesh
  cases hp : tidy e.paths with
  | nil => simp
  | cons p ps =>
      simp only [ne_eq, reduceCtorEq, not_false_eq_true, true_and]
      cases ht : triangulate (p :: ps) with
      | error x => simp [bind, Except.bind]
      | ok t =>
          cases hn : outwardNormals (boundaryEdges (p :: ps)) t with
          | error x => simp [bind, Except.bind, hn]
          | ok normals =>
              cases hc : caps t e.height with
              | error x =>
                  have hb : ¬ ∀ i ∈ t.triangles, i.Below t.points.size := fun hb => by
                    have := (caps_eq_ok_iff t e.height _).mpr ⟨hb, rfl⟩
                    rw [hc] at this
                    cases this
                  simp [bind, Except.bind, hn, hc, hb]
              | ok c =>
                  obtain ⟨hb, rfl⟩ := (caps_eq_ok_iff t e.height c).mp hc
                  simp only [bind, Except.bind, pure, Except.pure, hn, hc, Except.ok.injEq]
                  constructor
                  · rintro rfl
                    exact ⟨t, normals, rfl, hn, hb, rfl⟩
                  · rintro ⟨_, _, rfl, hn', _, rfl⟩
                    rw [hn] at hn'
                    cases hn'
                    rfl

theorem mesh_complete {e : Extrusion α} {triangulate : Triangulator α} {s : SubMesh α}
    (h : e.mesh triangulate = .ok s) : s.Complete false := by
  obtain ⟨_, t, normals, _, _, hb, rfl⟩ := (mesh_eq_ok_iff e triangulate s).mp h
  exact (capMesh_complete hb e.height).foldl_append (walls_complete _ _ _)

end Extrusion

end TriMesh
