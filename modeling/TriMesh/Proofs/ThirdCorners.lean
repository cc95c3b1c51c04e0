import TriMesh.Proofs.OutwardNormals

/-! # Third corners

What the search for the third corner at an edge has found, and how far the normals depend on it.
Nothing is asked of the scalars.

* A third corner comes with two corners beside it that match the ends of the edge
  (`exists_similar_of_thirdCorner`); where each end is matched by one corner alone, the three corners are
  known up to their order (`thirdCorner_eq_some_iff_perm`).
* If all that a search can find is the same, it does not matter what it finds first
  (`findSome?_eq_some_iff_of_agree`).
* A triangulation decides on the normals by the third corners at the edges and by nothing else
  (`edgeNormal_congr`, `outwardNormals_congr`). -/

namespace TriMesh

/-! ### Searches -/

section searches
variable {β γ δ ε : Type}

/-- A search that can find one thing only finds it wherever it is. -/
theorem findSome?_eq_some_iff_of_agree {f : β → Option γ} {l : List β}
    (h : ∀ a ∈ l, ∀ b ∈ l, ∀ x y, f a = some x → f b = some y → x = y) (x : γ) :
    l.findSome? f = some x ↔ ∃ a ∈ l, f a = some x := by
  constructor
  · exact List.exists_of_findSome?_eq_some
  · rintro ⟨a, ha, hx⟩
    have hsome : (l.findSome? f).isSome := by
      rw [List.findSome?_isSome_iff]
      exact ⟨a, ha, by rw [hx]; rfl⟩
    obtain ⟨y, hy⟩ := Option.isSome_iff_exists.mp hsome
    obtain ⟨b, hb, hby⟩ := List.exists_of_findSome?_eq_some hy
    rw [hy, h a ha b hb x y hx hby]

/-- Searches through lists that correspond find what corresponds, or both nothing. -/
theorem rel_findSome? {S : δ → ε → Prop} {f : β → Option δ} {g : γ → Option ε} {l : List β}
    {m : List γ} (h : List.Forall₂ (fun b c => Option.Rel S (f b) (g c)) l m) :
    Option.Rel S (l.findSome? f) (m.findSome? g) := by
  induction h with
  | nil => exact .none
  | @cons b c l m hbc _ ih =>
      rw [List.findSome?_cons, List.findSome?_cons]
      cases hf : f b with
      | none =>
          rw [hf] at hbc
          cases hg : g c with
          | none => exact ih
          | some y =>
              rw [hg] at hbc
              cases hbc
      | some x =>
          rw [hf] at hbc
          cases hg : g c with
          | none =>
              rw [hg] at hbc
              cases hbc
          | some y => rwa [hg] at hbc

end searches

namespace Extrusion

variable {α : Type} [Scalar α]

/-! ### What is found -/

section corners
variable {f : Facet (Vec2 α)} {p q r : Vec2 α} {tolerance : α}

theorem thirdCorner_eq_some_iff :
    thirdCorner (f.a, f.b, f.c) p q tolerance = some r ↔
      ∃ i j, f.corners.findIdx? (close tolerance · p) = some i ∧
        f.corners.findIdx? (close tolerance · q) = some j ∧ i ≠ j ∧
        f.corners[3 - i - j]? = some r := by
  simp only [thirdCorner, Facet.corners, Option.bind_eq_bind, Option.bind_eq_some_iff]
  constructor
  · rintro ⟨i, hi, j, hj, h⟩
    split at h
    · cases h
    · rename_i hij
      exact ⟨i, j, hi, hj, hij, h⟩
  · rintro ⟨i, j, hi, hj, hij, h⟩
    exact ⟨i, hi, j, hj, (if_neg hij).trans h⟩

/-- The corner at which a search stops matches. -/
theorem exists_corner_of_findIdx? {i : ℕ} (h : f.corners.findIdx? (close tolerance · p) = some i) :
    ∃ x, f.corners[i]? = some x ∧ close tolerance x p = true := by
  obtain ⟨hi, hclose, _⟩ := List.findIdx?_eq_some_iff_getElem.mp h
  exact ⟨f.corners[i], List.getElem?_eq_getElem hi, hclose⟩

omit [Scalar α] in
/-- Corners at two places and the one at the place that is left make up the facet. -/
theorem similar_of_getElem? {i j : ℕ} {x y : Vec2 α} (hij : i ≠ j) (hx : f.corners[i]? = some x)
    (hy : f.corners[j]? = some y) (hr : f.corners[3 - i - j]? = some r) :
    f.Similar ⟨x, y, r⟩ ∨ f.Similar ⟨y, x, r⟩ := by
  have hi : i < 3 := (List.getElem?_eq_some_iff.mp hx).1
  have hj : j < 3 := (List.getElem?_eq_some_iff.mp hy).1
  obtain ⟨a, b, c⟩ := f
  interval_cases i <;> interval_cases j <;> first
    | exact absurd rfl hij
    | (cases hx; cases hy; cases hr; simp [Facet.Similar, Facet.rotate])

/-- Beside a third corner stand two corners that match the ends. -/
theorem exists_similar_of_thirdCorner (h : thirdCorner (f.a, f.b, f.c) p q tolerance = some r) :
    ∃ x y, close tolerance x p = true ∧ close tolerance y q = true ∧
      (f.Similar ⟨x, y, r⟩ ∨ f.Similar ⟨y, x, r⟩) := by
  obtain ⟨i, j, hi, hj, hij, hr⟩ := thirdCorner_eq_some_iff.mp h
  obtain ⟨x, hx, hxp⟩ := exists_corner_of_findIdx? hi
  obtain ⟨y, hy, hyq⟩ := exists_corner_of_findIdx? hj
  exact ⟨x, y, hxp, hyq, similar_of_getElem? hij hx hy hr⟩

omit [Scalar α] in
theorem perm_corners_of_similar (h : f.Similar ⟨p, q, r⟩ ∨ f.Similar ⟨q, p, r⟩) :
    [p, q, r].Perm f.corners := by
  rcases h with h | h
  · exact h.perm_corners.symm
  · exact (List.Perm.swap _ _ _).trans h.perm_corners.symm

/-- Searches that stop at different places stop at different corners. -/
theorem ne_of_findIdx? {i j : ℕ} {x y : Vec2 α} (hij : i ≠ j)
    (hi : f.corners.findIdx? (close tolerance · p) = some i)
    (hj : f.corners.findIdx? (close tolerance · q) = some j)
    (hx : f.corners[i]? = some x) (hy : f.corners[j]? = some y) : x ≠ y := by
  -- one corner that matches both ends would have stopped both searches at the same place
  rintro rfl
  obtain ⟨hi3, hxp, hfirst⟩ := List.findIdx?_eq_some_iff_getElem.mp hi
  obtain ⟨hj3, hxq, hfirst'⟩ := List.findIdx?_eq_some_iff_getElem.mp hj
  have hsame : f.corners[i] = f.corners[j] := by
    rw [(List.getElem?_eq_some_iff.mp hx).2, (List.getElem?_eq_some_iff.mp hy).2]
  rcases Nat.lt_or_gt_of_ne hij with hlt | hlt
  · exact hfirst' i hlt (hsame ▸ hxq)
  · exact hfirst j hlt (hsame ▸ hxp)

/-- A search for the one corner that matches finds it. -/
theorem exists_findIdx?_of_mem {x : Vec2 α} (hx : x ∈ f.corners) (hxp : close tolerance x p = true)
    (hp : ∀ x ∈ f.corners, ∀ y ∈ f.corners, close tolerance x p = true →
      close tolerance y p = true → x = y) :
    ∃ i, f.corners.findIdx? (close tolerance · p) = some i ∧ f.corners[i]? = some x := by
  have hsome : (f.corners.findIdx? (close tolerance · p)).isSome := by
    rw [List.findIdx?_isSome, List.any_eq_true]
    exact ⟨x, hx, hxp⟩
  obtain ⟨i, hi⟩ := Option.isSome_iff_exists.mp hsome
  obtain ⟨y, hy, hyp⟩ := exists_corner_of_findIdx? hi
  exact ⟨i, hi, hp y (List.mem_of_getElem? hy) x hx hyp hxp ▸ hy⟩

/-- Where each end is matched by one corner alone, the third corner is the one beside these two. -/
theorem thirdCorner_eq_some_iff_perm
    (hp : ∀ x ∈ f.corners, ∀ y ∈ f.corners, close tolerance x p = true →
      close tolerance y p = true → x = y)
    (hq : ∀ x ∈ f.corners, ∀ y ∈ f.corners, close tolerance x q = true →
      close tolerance y q = true → x = y) :
    thirdCorner (f.a, f.b, f.c) p q tolerance = some r ↔
      ∃ x y, close tolerance x p = true ∧ close tolerance y q = true ∧ x ≠ y ∧
        [x, y, r].Perm f.corners := by
  rw [thirdCorner_eq_some_iff]
  constructor
  · rintro ⟨i, j, hi, hj, hij, hr⟩
    obtain ⟨x, hx, hxp⟩ := exists_corner_of_findIdx? hi
    obtain ⟨y, hy, hyq⟩ := exists_corner_of_findIdx? hj
    exact ⟨x, y, hxp, hyq, ne_of_findIdx? hij hi hj hx hy,
      perm_corners_of_similar (similar_of_getElem? hij hx hy hr)⟩
  · rintro ⟨x, y, hxp, hyq, hxy, hperm⟩
    obtain ⟨i, hi, hx⟩ := exists_findIdx?_of_mem (hperm.mem_iff.mp (by simp)) hxp hp
    obtain ⟨j, hj, hy⟩ := exists_findIdx?_of_mem (hperm.mem_iff.mp (by simp)) hyq hq
    have hij : i ≠ j := by
      rintro rfl
      exact hxy (Option.some.inj (hx.symm.trans hy))
    have hi3 : i < 3 := (List.getElem?_eq_some_iff.mp hx).1
    have hj3 : j < 3 := (List.getElem?_eq_some_iff.mp hy).1
    have hk : 3 - i - j < f.corners.length := by
      simp only [Facet.corners, List.length_cons, List.length_nil]
      omega
    -- what is found beside `x` and `y` can only be `r`
    have hrest := List.getElem?_eq_getElem hk
    have hfound := perm_corners_of_similar (similar_of_getElem? hij hx hy hrest)
    have hsingle := (hperm.trans hfound.symm).cons_inv.cons_inv
    rw [List.singleton_perm_singleton] at hsingle
    exact ⟨i, j, hi, hj, hij, hsingle ▸ hrest⟩

end corners

/-! ### What depends on it -/

theorem edgeNormal_congr {t t' : Triangulation α} {tolerance : α} {e : Edge α}
    (h : opposite t' e tolerance = opposite t e tolerance) :
    edgeNormal t' tolerance e = edgeNormal t tolerance e := by
  simp only [edgeNormal, h]

theorem outwardNormals_congr {t t' : Triangulation α} {edges : List (Edge α)}
    (h : ∀ e ∈ edges, edgeNormal t' (Tolerance.pointMatch (extent edges)) e =
      edgeNormal t (Tolerance.pointMatch (extent edges)) e) :
    outwardNormals edges t' = outwardNormals edges t := by
  simp only [outwardNormals]
  rw [List.filterMap_congr h]

end Extrusion

end TriMesh
