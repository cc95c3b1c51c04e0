import TriMesh.Proofs.ClosedExtrusions
import TriMesh.Proofs.ThirdCorners

/-! # Relisted triangulations

The normals of a figure do not depend on the order in which a triangulator lists what it has found.
Nothing is asked of the scalars, so this holds of doubles too.

* `Triangulation.IsRelisting`: the points have other numbers, the triangles stand in another order, and
  the corners of each of them do.  Triangles that name missing points may be among them.
* The searches for the third corner take what they find first.  Where at most one triangle reaches both
  ends of an edge, and each end is matched by one of its corners (`Triangulation.MatchesOnce`), there is
  nothing else to find, and what there is does not depend on the listing (`opposite_relisting`).
* On a spread triangulation this holds of every edge that belongs to one triangle only
  (`matchesOnce_of_isSpread`). -/

namespace TriMesh

/-! ### Listings -/

theorem exists_mem_of_forall₂ {β γ : Type} {R : β → γ → Prop} {l : List β} {m : List γ}
    (h : List.Forall₂ R l m) {b : β} (hb : b ∈ l) : ∃ c ∈ m, R b c := by
  induction h with
  | nil => cases hb
  | cons hbc _ ih =>
      rcases List.mem_cons.mp hb with rfl | hb
      · exact ⟨_, List.mem_cons_self, hbc⟩
      · obtain ⟨c, hc, hbc⟩ := ih hb
        exact ⟨c, List.mem_cons_of_mem _ hc, hbc⟩

/-- The same triangles over the same points, listed otherwise.  A number without a point goes to another
one without a point. -/
structure Triangulation.IsRelisting {α : Type} (t t' : Triangulation α) (number : ℕ → ℕ) : Prop where
  /-- Every point is there under its new number. -/
  points : ∀ i, t'.points[number i]? = t.points[i]?
  /-- Triangle by triangle the new numbers stand in any order, and the triangles themselves do. -/
  triangles : ∃ list, List.Forall₂ (fun i j => j.toList.Perm (i.toList.map number)) t.triangles list ∧
    list.Perm t'.triangles

namespace Triangle

variable {β : Type} {places places' : Array β} {i j : Triangle} {f : Facet β}

theorem facet?_eq_some_iff :
    i.facet? places = some f ↔ i.toList.map (places[·]?) = f.corners.map some := by
  obtain ⟨a, b, c⟩ := i
  obtain ⟨x, y, z⟩ := f
  simp only [facet?, toList, Facet.corners, Option.bind_eq_bind, Option.pure_def,
    Option.bind_eq_some_iff, Option.some.injEq, Facet.mk.injEq, List.map_cons, List.map_nil,
    List.cons.injEq, and_true]
  constructor
  · rintro ⟨x', hx, y', hy, z', hz, rfl, rfl, rfl⟩
    exact ⟨hx, hy, hz⟩
  · rintro ⟨hx, hy, hz⟩
    exact ⟨x, hx, y, hy, z, hz, rfl, rfl, rfl⟩

/-- Triangles whose entries agree up to their order have corners that agree up to their order. -/
theorem exists_facet?_of_perm (h : (j.toList.map (places'[·]?)).Perm (i.toList.map (places[·]?)))
    (hf : i.facet? places = some f) :
    ∃ g, j.facet? places' = some g ∧ g.corners.Perm f.corners := by
  rw [facet?_eq_some_iff.mp hf] at h
  have hentry (k : ℕ) (hk : k ∈ j.toList) : ∃ x, places'[k]? = some x := by
    obtain ⟨x, _, hx⟩ := List.mem_map.mp (h.mem_iff.mp (List.mem_map_of_mem hk))
    exact ⟨x, hx.symm⟩
  obtain ⟨x, hx⟩ := hentry j.a (by simp [toList])
  obtain ⟨y, hy⟩ := hentry j.b (by simp [toList])
  obtain ⟨z, hz⟩ := hentry j.c (by simp [toList])
  have hg : j.facet? places' = some ⟨x, y, z⟩ := facet?_eq hx hy hz
  rw [facet?_eq_some_iff.mp hg, List.map_perm_map_iff (Option.some_injective β)] at h
  exact ⟨⟨x, y, z⟩, hg, h⟩

end Triangle

theorem Triangulation.mem_facets {α : Type} {t : Triangulation α} {f : Facet (Vec2 α)} :
    f ∈ t.facets ↔ ∃ i ∈ t.triangles, i.facet? t.points = some f := List.mem_filterMap

namespace Triangulation.IsRelisting

variable {α : Type} {t t' : Triangulation α} {number : ℕ → ℕ} (h : t.IsRelisting t' number)
include h

theorem entries_perm {i j : Triangle} (hij : j.toList.Perm (i.toList.map number)) :
    (j.toList.map (t'.points[·]?)).Perm (i.toList.map (t.points[·]?)) := by
  have hmap := hij.map (t'.points[·]?)
  rwa [List.map_map, show (t'.points[·]?) ∘ number = (t.points[·]?) from funext h.points] at hmap

theorem exists_facet_right {f : Facet (Vec2 α)} (hf : f ∈ t.facets) :
    ∃ g ∈ t'.facets, g.corners.Perm f.corners := by
  obtain ⟨list, hlist, hperm⟩ := h.triangles
  obtain ⟨i, hi, hif⟩ := mem_facets.mp hf
  obtain ⟨j, hj, hij⟩ := exists_mem_of_forall₂ hlist hi
  obtain ⟨g, hg, hgf⟩ := Triangle.exists_facet?_of_perm (h.entries_perm hij) hif
  exact ⟨g, mem_facets.mpr ⟨j, hperm.mem_iff.mp hj, hg⟩, hgf⟩

theorem exists_facet_left {g : Facet (Vec2 α)} (hg : g ∈ t'.facets) :
    ∃ f ∈ t.facets, g.corners.Perm f.corners := by
  obtain ⟨list, hlist, hperm⟩ := h.triangles
  obtain ⟨j, hj, hjg⟩ := mem_facets.mp hg
  obtain ⟨i, hi, hij⟩ := exists_mem_of_forall₂ hlist.flip (hperm.mem_iff.mpr hj)
  obtain ⟨f, hf, hfg⟩ := Triangle.exists_facet?_of_perm (h.entries_perm hij).symm hjg
  exact ⟨f, mem_facets.mpr ⟨i, hi, hf⟩, hfg.symm⟩

end Triangulation.IsRelisting

/-! ### Edges with one triangle -/

section scalar
variable {α : Type} [Scalar α]

/-- Some corner matches the start of the edge, and some corner its end. -/
def Facet.Reaches (f : Facet (Vec2 α)) (tolerance : α) (e : Edge α) : Prop :=
  (∃ x ∈ f.corners, Extrusion.close tolerance x e.start = true) ∧
    ∃ x ∈ f.corners, Extrusion.close tolerance x e.stop = true

/-- At most one triangle reaches both ends of the edge, and each end is matched by one of its corners. -/
structure Triangulation.MatchesOnce (t : Triangulation α) (tolerance : α) (e : Edge α) : Prop where
  /-- No two triangles reach both ends. -/
  triangle : ∀ f ∈ t.facets, ∀ g ∈ t.facets, f.Reaches tolerance e → g.Reaches tolerance e → f = g
  /-- One corner of such a triangle matches the start. -/
  start : ∀ f ∈ t.facets, f.Reaches tolerance e →
    ∃! x, x ∈ f.corners ∧ Extrusion.close tolerance x e.start = true
  /-- One corner of such a triangle matches the end. -/
  stop : ∀ f ∈ t.facets, f.Reaches tolerance e →
    ∃! x, x ∈ f.corners ∧ Extrusion.close tolerance x e.stop = true

namespace Extrusion

theorem reaches_of_thirdCorner {f : Facet (Vec2 α)} {tolerance : α} {e : Edge α} {r : Vec2 α}
    (h : thirdCorner (f.a, f.b, f.c) e.start e.stop tolerance = some r) : f.Reaches tolerance e := by
  obtain ⟨x, y, hx, hy, hsim⟩ := exists_similar_of_thirdCorner h
  have hperm := perm_corners_of_similar hsim
  exact ⟨⟨x, hperm.mem_iff.mp (by simp), hx⟩, y, hperm.mem_iff.mp (by simp), hy⟩

theorem reaches_perm {f g : Facet (Vec2 α)} (h : g.corners.Perm f.corners) {tolerance : α}
    {e : Edge α} : g.Reaches tolerance e ↔ f.Reaches tolerance e := by
  simp only [Facet.Reaches, h.mem_iff]

section once
variable {t : Triangulation α} {tolerance : α} {e : Edge α} (h : t.MatchesOnce tolerance e)
include h

/-- The order of the corners does not matter to a triangle that is matched once. -/
theorem thirdCorner_perm {f g : Facet (Vec2 α)} (hf : f ∈ t.facets)
    (hperm : g.corners.Perm f.corners) :
    thirdCorner (g.a, g.b, g.c) e.start e.stop tolerance =
      thirdCorner (f.a, f.b, f.c) e.start e.stop tolerance := by
  by_cases hr : f.Reaches tolerance e
  · have hstart {x y : Vec2 α} (hx : x ∈ f.corners) (hy : y ∈ f.corners)
        (hxe : close tolerance x e.start = true) (hye : close tolerance y e.start = true) : x = y :=
      (h.start f hf hr).unique ⟨hx, hxe⟩ ⟨hy, hye⟩
    have hstop {x y : Vec2 α} (hx : x ∈ f.corners) (hy : y ∈ f.corners)
        (hxe : close tolerance x e.stop = true) (hye : close tolerance y e.stop = true) : x = y :=
      (h.stop f hf hr).unique ⟨hx, hxe⟩ ⟨hy, hye⟩
    apply Option.ext
    intro r
    rw [thirdCorner_eq_some_iff_perm (f := f) (fun x hx y hy => hstart hx hy)
        fun x hx y hy => hstop hx hy,
      thirdCorner_eq_some_iff_perm (f := g)
        (fun x hx y hy => hstart (hperm.mem_iff.mp hx) (hperm.mem_iff.mp hy))
        fun x hx y hy => hstop (hperm.mem_iff.mp hx) (hperm.mem_iff.mp hy)]
    simp only [hperm.congr_right]
  · have hnone {g : Facet (Vec2 α)} (hg : ¬g.Reaches tolerance e) :
        thirdCorner (g.a, g.b, g.c) e.start e.stop tolerance = none := by
      rw [Option.eq_none_iff_forall_ne_some]
      exact fun r hr => hg (reaches_of_thirdCorner hr)
    rw [hnone hr, hnone (mt (reaches_perm hperm).mp hr)]

theorem thirdCorner_agree {f g : Facet (Vec2 α)} (hf : f ∈ t.facets) (hg : g ∈ t.facets)
    {r s : Vec2 α} (hr : thirdCorner (f.a, f.b, f.c) e.start e.stop tolerance = some r)
    (hs : thirdCorner (g.a, g.b, g.c) e.start e.stop tolerance = some s) : r = s := by
  obtain rfl := h.triangle f hf g hg (reaches_of_thirdCorner hr) (reaches_of_thirdCorner hs)
  exact Option.some.inj (hr.symm.trans hs)

/-- An edge that is matched once has the same third corner in every listing. -/
theorem opposite_relisting {t' : Triangulation α} {number : ℕ → ℕ} (hlist : t.IsRelisting t' number) :
    opposite t' e tolerance = opposite t e tolerance := by
  have hagree : ∀ f ∈ t'.facets, ∀ g ∈ t'.facets, ∀ r s,
      thirdCorner (f.a, f.b, f.c) e.start e.stop tolerance = some r →
      thirdCorner (g.a, g.b, g.c) e.start e.stop tolerance = some s → r = s := by
    intro f hf g hg r s hr hs
    obtain ⟨f', hf', hff'⟩ := hlist.exists_facet_left hf
    obtain ⟨g', hg', hgg'⟩ := hlist.exists_facet_left hg
    rw [thirdCorner_perm h hf' hff'] at hr
    rw [thirdCorner_perm h hg' hgg'] at hs
    exact thirdCorner_agree h hf' hg' hr hs
  apply Option.ext
  intro r
  rw [opposite_eq, opposite_eq, findSome?_eq_some_iff_of_agree hagree,
    findSome?_eq_some_iff_of_agree fun f hf g hg r s => thirdCorner_agree h hf hg]
  constructor
  · rintro ⟨g, hg, hr⟩
    obtain ⟨f, hf, hgf⟩ := hlist.exists_facet_left hg
    exact ⟨f, hf, thirdCorner_perm h hf hgf ▸ hr⟩
  · rintro ⟨f, hf, hr⟩
    obtain ⟨g, hg, hgf⟩ := hlist.exists_facet_right hf
    exact ⟨g, hg, (thirdCorner_perm h hf hgf).trans hr⟩

end once

/-- **Normals do not depend on the listing.**  If every edge is matched once, the normals, or the error,
are the same for any order of the triangles, of the corners in each of them, and of the points. -/
theorem outwardNormals_relisting {t t' : Triangulation α} {number : ℕ → ℕ} {edges : List (Edge α)}
    (hlist : t.IsRelisting t' number)
    (h : ∀ e ∈ edges, t.MatchesOnce (Tolerance.pointMatch (extent edges)) e) :
    outwardNormals edges t' = outwardNormals edges t :=
  outwardNormals_congr fun e he => edgeNormal_congr (opposite_relisting (h e he) hlist)

end Extrusion

end scalar

namespace Extrusion

/-! ### Spread triangulations -/

/-- On a spread triangulation an edge is matched once if it belongs to one triangle only. -/
theorem matchesOnce_of_isSpread {t : Triangulation ℝ} {tolerance : ℝ} (htol : 0 ≤ tolerance)
    (ht : t.IsSpread tolerance) {e : Edge ℝ} (hstart : e.start ∈ t.points) (hstop : e.stop ∈ t.points)
    (h : ∀ f ∈ t.facets, ∀ g ∈ t.facets, e.start ∈ f.corners → e.stop ∈ f.corners →
      e.start ∈ g.corners → e.stop ∈ g.corners → f = g) : t.MatchesOnce tolerance e := by
  have hclose {f : Facet (Vec2 ℝ)} (hf : f ∈ t.facets) {p : Vec2 ℝ} (hp : p ∈ t.points) {x : Vec2 ℝ}
      (hx : x ∈ f.corners) : close tolerance x p = true ↔ x = p :=
    close_iff htol ht (Triangulation.mem_points hf x hx) hp
  have hmem {f : Facet (Vec2 ℝ)} (hf : f ∈ t.facets) {p : Vec2 ℝ} (hp : p ∈ t.points)
      (hx : ∃ x ∈ f.corners, close tolerance x p = true) : p ∈ f.corners := by
    obtain ⟨x, hx, hxp⟩ := hx
    exact (hclose hf hp hx).mp hxp ▸ hx
  have hone {f : Facet (Vec2 ℝ)} (hf : f ∈ t.facets) {p : Vec2 ℝ} (hp : p ∈ t.points)
      (hx : ∃ x ∈ f.corners, close tolerance x p = true) :
      ∃! x, x ∈ f.corners ∧ close tolerance x p = true := by
    have hpf := hmem hf hp hx
    exact ⟨p, ⟨hpf, (hclose hf hp hpf).mpr rfl⟩, fun y hy => (hclose hf hp hy.1).mp hy.2⟩
  refine ⟨?_, fun f hf hr => hone hf hstart hr.1, fun f hf hr => hone hf hstop hr.2⟩
  intro f hf g hg hfr hgr
  exact h f hf g hg (hmem hf hstart hfr.1) (hmem hf hstop hfr.2) (hmem hg hstart hgr.1)
    (hmem hg hstop hgr.2)

/-- The cut square behind a triangle that names a missing point. -/
noncomputable def looseSquare : Triangulation ℝ :=
  ⟨cutSquare.points, ⟨0, 1, 4⟩ :: cutSquare.triangles⟩

/-- The same with points, triangles and corners in another order. -/
noncomputable def shuffledSquare : Triangulation ℝ :=
  ⟨#[⟨0, 1⟩, ⟨0, 0⟩, ⟨1, 1⟩, ⟨1, 0⟩], [⟨2, 0, 1⟩, ⟨1, 4, 3⟩, ⟨2, 3, 1⟩]⟩

theorem isRelisting_shuffledSquare :
    looseSquare.IsRelisting shuffledSquare fun i => [1, 3, 2, 0].getD i i where
  points
    | 0 | 1 | 2 | 3 => rfl
    | i + 4 => by simp [looseSquare, shuffledSquare, cutSquare]
  triangles := by
    refine ⟨[⟨1, 4, 3⟩, ⟨2, 3, 1⟩, ⟨2, 0, 1⟩], ?_, by decide⟩
    exact .cons (by decide) (.cons (by decide) (.cons (by decide) .nil))

theorem matchesOnce_looseSquare : ∀ e ∈ boundaryEdges [square],
    looseSquare.MatchesOnce (Tolerance.pointMatch (extent (boundaryEdges [square]))) e := by
  have hfacets : looseSquare.facets = cutSquare.facets := rfl
  intro e he
  obtain ⟨hstart, hstop⟩ := cutSquare_fills.ends e he
  refine matchesOnce_of_isSpread (t := looseSquare) (pointMatch_extent_nonneg _) cutSquare_fills.spread
    hstart hstop ?_
  rw [hfacets, facets_cutSquare]
  rw [boundaryEdges_square] at he
  simp only [List.mem_cons, List.not_mem_nil, or_false] at he ⊢
  -- no two corners that both triangles have are the ends of an edge
  rcases he with rfl | rfl | rfl | rfl <;> rintro f (rfl | rfl) g (rfl | rfl) <;>
    simp [Facet.corners]

/-- The edges of the square have the same normals over a shuffled listing. -/
theorem outwardNormals_relisting_square :
    looseSquare.IsRelisting shuffledSquare (fun i => [1, 3, 2, 0].getD i i) ∧
      (∀ e ∈ boundaryEdges [square],
        looseSquare.MatchesOnce (Tolerance.pointMatch (extent (boundaryEdges [square]))) e) ∧
      outwardNormals (boundaryEdges [square]) shuffledSquare =
        outwardNormals (boundaryEdges [square]) looseSquare :=
  ⟨isRelisting_shuffledSquare, matchesOnce_looseSquare,
    outwardNormals_relisting isRelisting_shuffledSquare matchesOnce_looseSquare⟩

end Extrusion

end TriMesh
