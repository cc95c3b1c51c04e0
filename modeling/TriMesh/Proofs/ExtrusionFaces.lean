import TriMesh.Proofs.ClosedExtrusions
import TriMesh.Proofs.EdgeNormals
import TriMesh.Proofs.ExtrusionLayout
import TriMesh.Proofs.ExtrusionOutcomes

/-! # Faces of an extrusion

Which way the triangles of an extruded solid face, and which normals their corners have.

* `SubMesh.HasFace` speaks of one triangle of a submesh by its number, its places and its normal; it is
  kept when submeshes are put one behind the other (`HasFace.append_left`, `HasFace.append_right`).
* Each triangle of the triangulation is found at the bottom, turned to face down, and at the top, turned
  to face up, whichever way it was wound (`hasFace_bottom`, `hasFace_top`).
* A wall is walked in one of two directions, by the side on which its normal lies, so that both its
  triangles face along the normal by the area of the wall (`faceVector_of_mem_wallFacets`).
* These are all the triangles of the solid (`HasFaces`, `mesh_hasFaces`); with a positive height walls
  face along their normals, and with a negative one against them.

The facts about single submeshes ask nothing of the scalars; directions are read with exact scalars. -/

namespace TriMesh

/-! ### Single triangles -/

namespace Triangle

variable {β : Type} {places : Array β} {i : Triangle} {f : Facet β}

theorem below_of_facet? (h : i.facet? places = some f) : i.Below places.size := by
  simp only [facet?, Option.bind_eq_bind, Option.pure_def, Option.bind_eq_some_iff] at h
  obtain ⟨a, ha, b, hb, c, hc, _⟩ := h
  exact ⟨(Array.getElem?_eq_some_iff.mp ha).1, (Array.getElem?_eq_some_iff.mp hb).1,
    (Array.getElem?_eq_some_iff.mp hc).1⟩

theorem facet?_append_left (h : i.facet? places = some f) (more : Array β) :
    i.facet? (places ++ more) = some f :=
  (facet?_append_of_below (below_of_facet? h) more).trans h

theorem facet?_replicate {n : ℕ} (h : i.Below n) (x : β) :
    i.facet? (Array.replicate n x) = some ⟨x, x, x⟩ := by
  apply facet?_eq
  · rw [Array.getElem?_replicate, if_pos h.1]
  · rw [Array.getElem?_replicate, if_pos h.2.1]
  · rw [Array.getElem?_replicate, if_pos h.2.2]

end Triangle

/-- Twice the area along the way the facet faces. -/
def Facet.faceVector {α : Type} [Scalar α] (f : Facet (Vec3 α)) : Vec3 α :=
  SubMesh.faceVector f.a f.b f.c

theorem Facet.faceVector_flip (f : Facet (Vec3 ℝ)) : f.flip.faceVector = -f.faceVector := by
  apply Vec3.ext
  · simp only [Facet.faceVector, SubMesh.faceVector, Facet.flip, Vec3.cross_x, Vec3.neg_x]
    ring
  · simp only [Facet.faceVector, SubMesh.faceVector, Facet.flip, Vec3.cross_y, Vec3.neg_y]
    ring
  · simp only [Facet.faceVector, SubMesh.faceVector, Facet.flip, Vec3.cross_z, Vec3.neg_z]
    ring

namespace SubMesh

variable {α : Type}

/-- The `k`-th triangle has its corners at the places of the facet, all with one normal. -/
def HasFace (s : SubMesh α) (k : ℕ) (f : Facet (Vec3 α)) (n : Vec3 α) : Prop :=
  ∃ i, s.triangles[k]? = some i ∧ i.facet? s.vertices = some f ∧
    i.facet? s.normals = some ⟨n, n, n⟩

variable {s t : SubMesh α} {k : ℕ} {f : Facet (Vec3 α)} {n : Vec3 α} {textured : Bool}

theorem HasFace.append_left (h : s.HasFace k f n) (hs : s.Indexed) (t : SubMesh α) :
    (s ++ t).HasFace k f n := by
  obtain ⟨i, hi, hf, hn⟩ := h
  refine ⟨i, ?_, Triangle.facet?_append_left hf t.vertices, Triangle.facet?_append_left hn t.normals⟩
  rw [hs.triangles_append, List.getElem?_append_left (List.getElem?_eq_some_iff.mp hi).1, hi]

theorem HasFace.append_right (h : t.HasFace k f n) (hs : s.Complete textured) :
    (s ++ t).HasFace (s.triangles.length + k) f n := by
  obtain ⟨i, hi, hf, hn⟩ := h
  refine ⟨i.shift s.vertexCount, ?_, ?_, ?_⟩
  · rw [hs.toIndexed.triangles_append, List.getElem?_append_right (Nat.le_add_right _ _),
      Nat.add_sub_cancel_left, List.getElem?_map, hi]
    rfl
  · exact (Triangle.facet?_append_shift s.vertices t.vertices i).trans hf
  · rw [← hs.normals]
    exact (Triangle.facet?_append_shift s.normals t.normals i).trans hn

theorem HasFace.foldl_append_left {pieces : List (SubMesh α)} :
    ∀ {s : SubMesh α}, s.HasFace k f n → s.Complete textured → (∀ p ∈ pieces, p.Complete textured) →
      (pieces.foldl (· ++ ·) s).HasFace k f n := by
  induction pieces with
  | nil => exact fun h _ _ => h
  | cons p pieces ih =>
      intro s h hs hp
      obtain ⟨hp, hpieces⟩ := List.forall_mem_cons.mp hp
      exact ih (h.append_left hs.toIndexed p) (hs.append hp) hpieces

theorem length_triangles_append (hs : s.Indexed) (t : SubMesh α) :
    (s ++ t).triangles.length = s.triangles.length + t.triangles.length := by
  rw [hs.triangles_append, List.length_append, List.length_map]

theorem length_triangles_foldl_append {width : ℕ} {pieces : List (SubMesh α)} :
    ∀ {s : SubMesh α}, s.Complete textured →
      (∀ p ∈ pieces, p.Complete textured ∧ p.triangles.length = width) →
      (pieces.foldl (· ++ ·) s).triangles.length = s.triangles.length + width * pieces.length := by
  induction pieces with
  | nil => exact fun _ _ => rfl
  | cons p pieces ih =>
      intro s hs hpieces
      obtain ⟨⟨hp, hwidth⟩, hpieces⟩ := List.forall_mem_cons.mp hpieces
      rw [List.foldl_cons, ih (hs.append hp) hpieces, length_triangles_append hs.toIndexed, hwidth,
        List.length_cons, Nat.mul_succ]
      omega

/-- A triangle of the `k`-th of pieces with equally many triangles. -/
theorem HasFace.foldl_append_right {width j : ℕ} {p : SubMesh α} (h : p.HasFace j f n)
    {pieces : List (SubMesh α)} :
    ∀ {s : SubMesh α} {k : ℕ}, pieces[k]? = some p → s.Complete textured →
      (∀ p ∈ pieces, p.Complete textured ∧ p.triangles.length = width) →
      (pieces.foldl (· ++ ·) s).HasFace (s.triangles.length + (width * k + j)) f n := by
  induction pieces with
  | nil => intro s k hk; simp at hk
  | cons q pieces ih =>
      intro s k hk hs hpieces
      obtain ⟨⟨hq, hwidth⟩, hpieces⟩ := List.forall_mem_cons.mp hpieces
      rw [List.foldl_cons]
      cases k with
      | zero =>
          obtain rfl : q = p := Option.some.inj hk
          rw [Nat.mul_zero, Nat.zero_add]
          exact (h.append_right hs).foldl_append_left (hs.append hq) fun r hr => (hpieces r hr).1
      | succ k =>
          have hskip : s.triangles.length + (width * (k + 1) + j) =
              (s ++ q).triangles.length + (width * k + j) := by
            rw [length_triangles_append hs.toIndexed, hwidth, Nat.mul_succ]
            omega
          rw [hskip]
          exact ih hk (hs.append hq) hpieces

end SubMesh

namespace Extrusion

section scalar
variable {α : Type} [Scalar α]

/-! ### Caps -/

theorem triangles_capMesh (t : Triangulation α) (height : α) :
    (capMesh t height).triangles =
      t.triangles.flatMap fun i => [t.downward i, (t.downward i).flip.shift t.points.size] := by
  rw [SubMesh.triangles_of_flatten rfl, List.flatMap_map]

theorem length_triangles_capMesh (t : Triangulation α) (height : α) :
    (capMesh t height).triangles.length = 2 * t.triangles.length := by
  rw [triangles_capMesh]
  exact length_flatMap_of_length fun _ _ => rfl

section caps
variable {t : Triangulation α} {k : ℕ} {i : Triangle} (hk : t.triangles[k]? = some i)
  {f : Facet (Vec2 α)} (hf : i.facet? t.points = some f) (height : α)
include hk

theorem getElem?_triangles_capMesh {j : ℕ} (hj : j < 2) :
    (capMesh t height).triangles[2 * k + j]? =
      [t.downward i, (t.downward i).flip.shift t.points.size][j]? := by
  rw [triangles_capMesh, getElem?_flatMap hj fun _ _ => rfl, hk, Option.bind_some]

include hf

/-- Each triangle is at the bottom, turned clockwise. -/
theorem hasFace_bottom :
    (capMesh t height).HasFace (2 * k) (f.downward.map (·.extend 0)) Vec3.negUnitZ := by
  have hi := Triangle.below_of_facet? hf
  refine ⟨t.downward i, getElem?_triangles_capMesh hk height Nat.two_pos, facet?_bottom height hi hf, ?_⟩
  exact Triangle.facet?_append_left
    (Triangle.facet?_replicate (Triangulation.below_downward hi) _) _

/-- Each triangle is at the top, turned the other way. -/
theorem hasFace_top :
    (capMesh t height).HasFace (2 * k + 1) (f.downward.flip.map (·.extend height)) Vec3.unitZ := by
  have hi := Triangle.below_of_facet? hf
  refine ⟨(t.downward i).flip.shift t.points.size,
    getElem?_triangles_capMesh hk height Nat.one_lt_two, facet?_top height hf, ?_⟩
  have hshift := Triangle.facet?_append_shift (Array.replicate t.points.size (Vec3.negUnitZ : Vec3 α))
    (Array.replicate t.points.size Vec3.unitZ) (t.downward i).flip
  rw [Array.size_replicate] at hshift
  exact hshift.trans (Triangle.facet?_replicate (Triangulation.below_downward hi).flip _)

end caps

/-! ### Walls -/

/-- The two triangles of a wall. -/
def wallFacets (d : Edge α) (n : Vec3 α) (height : α) : Surface (Vec3 α) :=
  let a := d.start.extend 0
  let b := d.start.extend height
  let c := d.stop.extend height
  let g := d.stop.extend 0
  if 0 < ((g - a).cross n).z then [⟨a, c, g⟩, ⟨a, b, c⟩] else [⟨a, g, c⟩, ⟨a, c, b⟩]

theorem hasFace_wall {d : Edge α} {n : Vec3 α} {height : α} {j : ℕ} {f : Facet (Vec3 α)}
    (hj : (wallFacets d n height)[j]? = some f) : (wall d n height).HasFace j f n := by
  have htriangles : (wall d n height).triangles = [⟨0, 1, 2⟩, ⟨3, 4, 5⟩] := rfl
  have hfacets : (wall d n height).triangles.map (Triangle.facet? (wall d n height).vertices) =
      (wallFacets d n height).map some := by
    rw [htriangles]
    unfold wall wallFacets
    dsimp only
    split <;> rfl
  have hentry := congrArg (·[j]?) hfacets
  simp only [List.getElem?_map, hj, Option.map_some, Option.map_eq_some_iff] at hentry
  obtain ⟨i, hi, hf⟩ := hentry
  have hbelow : i.Below 6 := by
    have hmem := List.mem_of_getElem? hi
    rw [htriangles] at hmem
    simp only [List.mem_cons, List.not_mem_nil, or_false] at hmem
    rcases hmem with rfl | rfl <;> simp [Triangle.Below]
  exact ⟨i, hi, hf, Triangle.facet?_replicate hbelow n⟩

theorem exists_getElem?_wallFacets (d : Edge α) (n : Vec3 α) (height : α) {j : ℕ} (hj : j < 2) :
    ∃ f, (wallFacets d n height)[j]? = some f := by
  have hlength : (wallFacets d n height).length = 2 := by
    unfold wallFacets
    dsimp only
    split <;> rfl
  exact ⟨_, List.getElem?_eq_getElem (hlength ▸ hj)⟩

theorem mem_wallCorners {d : Edge α} {n : Vec3 α} {height : α} {f : Facet (Vec3 α)}
    (hf : f ∈ wallFacets d n height) : ∀ x ∈ f.corners, x ∈ wallCorners d height := by
  unfold wallFacets at hf
  dsimp only at hf
  split at hf <;> simp only [List.mem_cons, List.not_mem_nil, or_false] at hf <;>
    rcases hf with rfl | rfl <;> simp [Facet.corners, wallCorners]

end scalar

/-! ### Directions -/

theorem faceVector_extend_z (f : Facet (Vec2 ℝ)) (z : ℝ) :
    (f.map (·.extend z)).faceVector.z = f.area := by
  simp only [Facet.faceVector, SubMesh.faceVector, Facet.map, Facet.area, Vec3.cross_z, Vec2.extend,
    Vec3.sub_x, Vec3.sub_y, Vec2.perpDot_eq, Vec2.sub_x, Vec2.sub_y]
  ring

/-- The triangles of a wall with the lower edge walked forward. -/
theorem faceVector_wall (d : Edge ℝ) (height : ℝ) :
    let a := d.start.extend 0
    let c := d.stop.extend height
    let across : Vec3 ℝ := ⟨(d.stop - d.start).y * height, -((d.stop - d.start).x * height), 0⟩
    Facet.faceVector ⟨a, d.stop.extend 0, c⟩ = across ∧
      Facet.faceVector ⟨a, c, d.start.extend height⟩ = across := by
  intro a c across
  simp only [Facet.faceVector, SubMesh.faceVector, Vec3.cross, a, c, across, Vec2.extend, Vec3.sub_x,
    Vec3.sub_y, Vec3.sub_z, Vec2.sub_x, Vec2.sub_y, Vec3.mk.injEq]
  refine ⟨⟨?_, ?_, ?_⟩, ?_, ?_, ?_⟩ <;> ring

/-- An edge is the vector across its normal, by its length, and turns to the side of the normal. -/
theorem edge_of_isOutward {d : Edge ℝ} {r : Vec2 ℝ} {n : Vec3 ℝ} (h : IsOutward d r n) :
    let m := ((d.stop.extend 0 - d.start.extend 0).cross n).z
    (d.stop - d.start).x = n.y * m ∧ (d.stop - d.start).y = -(n.x * m) ∧
      (d.stop - d.start).length = |m| := by
  intro m
  obtain ⟨c, rfl, hunit, hacross, _⟩ := isOutward_iff.mp h
  have hm : m = (d.stop - d.start).x * c.y - c.x * (d.stop - d.start).y := rfl
  rw [Vec2.dot_eq] at hacross
  generalize d.stop - d.start = u at hacross hm ⊢
  have hx : u.x = c.y * m := by
    rw [hm]
    linear_combination c.x * hacross - u.x * hunit
  have hy : u.y = -(c.x * m) := by
    rw [hm]
    linear_combination c.y * hacross - u.y * hunit
  refine ⟨hx, hy, ?_⟩
  rw [Vec2.length, Scalar.real_sqrt, ← Real.sqrt_sq_eq_abs, Vec2.dot_eq, hx, hy]
  congr 1
  linear_combination m ^ 2 * hunit

/-- Both triangles of a wall face along its normal, by the area of the wall. -/
theorem faceVector_of_mem_wallFacets {d : Edge ℝ} {r : Vec2 ℝ} {n : Vec3 ℝ} (h : IsOutward d r n)
    (height : ℝ) {f : Facet (Vec3 ℝ)} (hf : f ∈ wallFacets d n height) :
    f.faceVector = n * (height * (d.stop - d.start).length) := by
  obtain ⟨hx, hy, hlength⟩ := edge_of_isOutward h
  obtain ⟨hlower, hupper⟩ := faceVector_wall d height
  unfold wallFacets at hf
  dsimp only at hf
  rw [hlength]
  generalize ((d.stop.extend 0 - d.start.extend 0).cross n).z = m at *
  -- walked forward the wall faces to the right of its edge
  have hacross : (⟨(d.stop - d.start).y * height, -((d.stop - d.start).x * height), 0⟩ : Vec3 ℝ) =
      n * (height * -m) := by
    apply Vec3.ext
    · simp only [Vec3.mul_x, hy]
      ring
    · simp only [Vec3.mul_y, hx]
      ring
    · simp only [Vec3.mul_z, h.flat, zero_mul]
  have hneg (x : ℝ) : -(n * (height * -x)) = n * (height * x) := by
    apply Vec3.ext
    · simp only [Vec3.neg_x, Vec3.mul_x]
      ring
    · simp only [Vec3.neg_y, Vec3.mul_y]
      ring
    · simp only [Vec3.neg_z, Vec3.mul_z]
      ring
  rw [hacross] at hlower hupper
  split at hf <;> rename_i hside <;> simp only [List.mem_cons, List.not_mem_nil, or_false] at hf
  · rw [abs_of_pos hside, ← hneg]
    rcases hf with rfl | rfl
    · exact (Facet.faceVector_flip _).trans (congrArg Neg.neg hlower)
    · exact (Facet.faceVector_flip _).trans (congrArg Neg.neg hupper)
  · rw [abs_of_nonpos (not_lt.mp hside)]
    rcases hf with rfl | rfl
    · exact hlower
    · exact hupper

/-! ### The solid -/

/-- Which triangles a solid has, at which places, which way they face, and with which normals. -/
structure HasFaces (e : Extrusion ℝ) (t : Triangulation ℝ) (s : SubMesh ℝ) : Prop where
  /-- Two triangles for each of the triangulation, and two for each wall. -/
  count : s.triangles.length = 2 * t.triangles.length + 2 * e.boundary.length
  /-- A triangle is at the bottom and at the top over the same three points; unless it is flat, it
  faces down there and up here. -/
  caps : ∀ (k : ℕ) (i : Triangle), t.triangles[k]? = some i →
    ∃ f bottom top, i.facet? t.points = some f ∧
      s.HasFace (2 * k) bottom Vec3.negUnitZ ∧ s.HasFace (2 * k + 1) top Vec3.unitZ ∧
      bottom.corners.Perm (f.corners.map (·.extend 0)) ∧
      top.corners.Perm (f.corners.map (·.extend e.height)) ∧
      (f.area ≠ 0 → bottom.faceVector.z < 0 ∧ 0 < top.faceVector.z)
  /-- Both triangles of a wall face along the normal of the edge, by height and length of the wall. -/
  wall : ∀ (k : ℕ) (d : Edge ℝ), e.boundary[k]? = some d →
    ∃ n, e.normal? t d = some n ∧ ∀ j < 2, ∃ g,
      s.HasFace (2 * t.triangles.length + (2 * k + j)) g n ∧
      (∀ x ∈ g.corners, x ∈ wallCorners d e.height) ∧
      g.faceVector = n * (e.height * (d.stop - d.start).length) ∧
      (0 < g.faceVector.dot n ↔ 0 < e.height)

theorem length_pos_of_ne {p q : Vec2 ℝ} (h : p ≠ q) : 0 < (q - p).length := by
  refine Real.sqrt_pos.mpr ?_
  rw [Vec2.dot_eq]
  rcases sub_ne_zero_of_ne h.symm with hx | hy
  · exact add_pos_of_pos_of_nonneg (mul_self_pos.mpr hx) (mul_self_nonneg _)
  · exact add_pos_of_nonneg_of_pos (mul_self_nonneg _) (mul_self_pos.mpr hy)

theorem dot_mul_self {n : Vec3 ℝ} (h : n.length = 1) (c : ℝ) : (n * c).dot n = c := by
  have hunit : n.dot n = 1 := Real.sqrt_eq_one.mp h
  calc (n * c).dot n = c * n.dot n := by
        simp only [Vec3.dot_eq, Vec3.mul_x, Vec3.mul_y, Vec3.mul_z]
        ring
    _ = c := by rw [hunit, mul_one]

section solid
variable {e : Extrusion ℝ} {t : Triangulation ℝ} {normals : List (Vec3 ℝ)}

theorem walls_spec (edges : List (Edge ℝ)) (normals : List (Vec3 ℝ)) (height : ℝ) :
    ∀ p ∈ walls edges normals height, p.Complete false ∧ p.triangles.length = 2 :=
  forall_mem_walls fun d n => ⟨wall_complete d n height, rfl⟩

/-- Caps with walls behind them have these faces. -/
theorem hasFaces_solid (hbelow : ∀ i ∈ t.triangles, i.Below t.points.size)
    (h : e.boundary.map (e.normal? t) = normals.map some) : e.HasFaces t (solid e t normals) := by
  have hcap := capMesh_complete hbelow e.height
  have hwalls := walls_spec e.boundary normals e.height
  constructor
  case count =>
    rw [solid, SubMesh.length_triangles_foldl_append hcap hwalls, length_triangles_capMesh,
      length_walls h]
  case caps =>
    intro k i hk
    have hi := hbelow i (List.mem_of_getElem? hk)
    obtain ⟨f, hf⟩ := Triangle.exists_facet? hi
    have hdown : f.downward.corners.Perm f.corners := Facet.perm_corners_downward
    have hkeep {j : ℕ} {g : Facet (Vec3 ℝ)} {n : Vec3 ℝ} (hg : (capMesh t e.height).HasFace j g n) :
        (solid e t normals).HasFace j g n :=
      hg.foldl_append_left hcap fun p hp => (hwalls p hp).1
    refine ⟨f, _, _, hf, hkeep (hasFace_bottom hk hf e.height), hkeep (hasFace_top hk hf e.height),
      ?_, ?_, ?_⟩
    · exact hdown.map (·.extend 0)
    · exact (Facet.perm_corners_flip.trans hdown).map (·.extend e.height)
    · intro harea
      rw [faceVector_extend_z, faceVector_extend_z, Facet.area_flip]
      exact ⟨Facet.area_downward harea, neg_pos.mpr (Facet.area_downward harea)⟩
  case wall =>
    intro k d hd
    obtain ⟨n, hn, hwall⟩ := getElem?_walls h e.height hd
    obtain ⟨hne, r, _, hout⟩ := isOutward_of_edgeNormal hn
    refine ⟨n, hn, fun j hj => ?_⟩
    obtain ⟨g, hg⟩ := exists_getElem?_wallFacets d n e.height hj
    have hmem := List.mem_of_getElem? hg
    have hface := (hasFace_wall hg).foldl_append_right hwall hcap hwalls
    have hvector := faceVector_of_mem_wallFacets hout e.height hmem
    rw [length_triangles_capMesh] at hface
    refine ⟨g, hface, mem_wallCorners hmem, hvector, ?_⟩
    rw [hvector, dot_mul_self hout.unit, mul_pos_iff_of_pos_right (length_pos_of_ne hne)]

end solid

/-- **The ways in which the triangles of an extrusion face.**  Whatever the triangulator answers, the
caps face down and up, and walls face along their normals, by the area of the wall. -/
theorem mesh_hasFaces {e : Extrusion ℝ} {triangulate : Triangulator ℝ} {s : SubMesh ℝ}
    (h : e.mesh triangulate = .ok s) :
    ∃ t, triangulate (tidy e.paths) = .ok t ∧ e.HasFaces t s := by
  obtain ⟨_, t, normals, ht, hnormals, hbelow, rfl⟩ := (mesh_eq_ok_iff e triangulate s).mp h
  exact ⟨t, ht, hasFaces_solid hbelow ((outwardNormals_eq_ok_iff _ _ _).mp hnormals)⟩

/-- The faces of a square over two triangles that are wound differently. -/
theorem mesh_hasFaces_square :
    ∃ s, (⟨[square], 2⟩ : Extrusion ℝ).mesh (fun _ => .ok cutSquare) = .ok s ∧
      (⟨[square], 2⟩ : Extrusion ℝ).HasFaces cutSquare s := by
  obtain ⟨s, hs⟩ := exists_mesh_square
  obtain ⟨t, ⟨⟩, hfaces⟩ := mesh_hasFaces hs
  exact ⟨s, hs, hfaces⟩

end Extrusion

end TriMesh
