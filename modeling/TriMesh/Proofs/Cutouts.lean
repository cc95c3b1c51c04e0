import Mathlib.Data.List.Forall2
import Mathlib.Data.List.Nodup
import TriMesh.Delaunay.Triangulator
import TriMesh.Proofs.ExtrusionParts

/-! # Cutouts

What is left of a subdivision when the faces inside some paths are cut out, over any scalars.

* **Numbers.** Visiting a face numbers its vertices, whether the face is kept or not.  The vertices met so far
  are listed once each in the order in which they were met (`FirstOccurrences`), and the table and the points
  are that list (`Cutout.Lists`).
* **Steps.** Numbering a vertex only makes the list longer at its end, so that triangles kept earlier go on to
  name the vertices of their faces (`Cutout.Lists.number`).
* **Runs.** After all faces, the triangles kept are the faces whose centroid is inside the paths
  (`Subdivision.exists_cuts`).
* **Range.** No triangle names a missing point, even if the faces name missing vertices, so caps over the
  result never fail (`Subdivision.below_of_interior`). -/

namespace TriMesh

/-! ### First occurrences -/

/-- The entries of a list, each of them once, in the order in which they occur first. -/
structure FirstOccurrences (used seen : List Nat) : Prop where
  /-- Each entry occurs once. -/
  nodup : used.Nodup
  /-- All entries occur, and no others. -/
  mem_iff : ∀ v, v ∈ used ↔ v ∈ seen
  /-- Entries that occur earlier come first. -/
  sorted : used.Pairwise fun u v => seen.idxOf u < seen.idxOf v

namespace FirstOccurrences

variable {used seen : List Nat} {v : Nat}

theorem nil : FirstOccurrences [] [] := ⟨List.nodup_nil, fun _ => Iff.rfl, List.Pairwise.nil⟩

/-- Entries keep their places when the list grows. -/
theorem sorted_append (h : FirstOccurrences used seen) (more : List Nat) :
    used.Pairwise fun u v => (seen ++ more).idxOf u < (seen ++ more).idxOf v := by
  refine h.sorted.imp_of_mem fun {u v} hu hv hlt => ?_
  rwa [List.idxOf_append_of_mem ((h.mem_iff u).mp hu), List.idxOf_append_of_mem ((h.mem_iff v).mp hv)]

theorem again (h : FirstOccurrences used seen) (hv : v ∈ used) : FirstOccurrences used (seen ++ [v]) := by
  refine ⟨h.nodup, fun u => ?_, h.sorted_append [v]⟩
  rw [List.mem_append, List.mem_singleton, ← h.mem_iff]
  exact ⟨Or.inl, fun hu => hu.elim id fun heq => heq ▸ hv⟩

theorem concat (h : FirstOccurrences used seen) (hv : v ∉ used) :
    FirstOccurrences (used ++ [v]) (seen ++ [v]) := by
  have hseen : v ∉ seen := mt (h.mem_iff v).mpr hv
  refine ⟨List.nodup_append.mpr ⟨h.nodup, List.nodup_singleton v, ?_⟩, fun u => ?_,
    List.pairwise_append.mpr ⟨h.sorted_append [v], List.pairwise_singleton _ _, ?_⟩⟩
  · intro u hu w hw heq
    exact hv (List.mem_singleton.mp hw ▸ heq ▸ hu)
  · rw [List.mem_append, List.mem_append, h.mem_iff]
  · intro u hu w hw
    obtain rfl := List.mem_singleton.mp hw
    have hmem : u ∈ seen := (h.mem_iff u).mp hu
    rw [List.idxOf_append_of_mem hmem, List.idxOf_append_of_notMem hseen]
    have hlt : seen.idxOf u < seen.length := List.idxOf_lt_length_of_mem hmem
    omega

end FirstOccurrences

theorem getElem?_concat_eq_some_iff {β : Type} {l : List β} {a b : β} {i : Nat} :
    (l ++ [a])[i]? = some b ↔ l[i]? = some b ∨ i = l.length ∧ a = b := by
  rcases Nat.lt_trichotomy i l.length with hlt | rfl | hgt
  · rw [List.getElem?_append_left hlt]
    exact ⟨Or.inl, fun h => h.elim id fun h => absurd h.1 (Nat.ne_of_lt hlt)⟩
  · simp
  · rw [List.getElem?_eq_none (by simp; omega), List.getElem?_eq_none (Nat.le_of_lt hgt)]
    simp [Nat.ne_of_gt hgt]

/-! ### Numbering vertices -/

variable {α : Type} [Scalar α] {s : Subdivision α} {paths : List (Path α)} {used seen : List Nat} {c : Cutout α}

theorem getElem?_of_isPrefix {β : Type} {l more : List β} {i : Nat} {b : β} (hi : l[i]? = some b) (h : l <+: more) :
    more[i]? = some b := by
  obtain ⟨tail, rfl⟩ := h
  rw [List.getElem?_append_left (List.getElem?_eq_some_iff.mp hi).1, hi]

/-- A triangle names the corners of a face by their places in a list. -/
def Triangle.Names (used : List Nat) (t face : Triangle) : Prop :=
  used[t.a]? = some face.a ∧ used[t.b]? = some face.b ∧ used[t.c]? = some face.c

theorem Triangle.Names.mono {more : List Nat} {t face : Triangle} (h : t.Names used face) (hmore : used <+: more) :
    t.Names more face :=
  ⟨getElem?_of_isPrefix h.1 hmore, getElem?_of_isPrefix h.2.1 hmore, getElem?_of_isPrefix h.2.2 hmore⟩

namespace Cutout

/-- The points and the table of numbers list the vertices met so far. -/
structure Lists (s : Subdivision α) (seen used : List Nat) (c : Cutout α) : Prop
    extends FirstOccurrences used seen where
  /-- The points are their positions. -/
  points : c.points.toList = used.map s.position
  /-- The table has the place of each of them, and nothing else. -/
  numbered : ∀ v i : Nat, c.numbers[v]? = some (some i) ↔ used[i]? = some v
  /-- There is an entry for each vertex. -/
  size : c.numbers.size = s.positions.size

theorem Lists.point (h : Lists s seen used c) {i v : Nat} (hi : used[i]? = some v) :
    c.points[i]? = some (s.position v) := by
  rw [← Array.getElem?_toList, h.points, List.getElem?_map, hi, Option.map_some]

/-- **Numbering a vertex.**  The list grows at its end or not at all, and the number is the vertex's place. -/
theorem Lists.number (h : Lists s seen used c) {v : Nat} (hv : v < s.positions.size) :
    ∃ i d more, c.number s v = (i, d) ∧ used <+: more ∧ more[i]? = some v ∧ Lists s (seen ++ [v]) more d ∧
      d.triangles = c.triangles := by
  unfold Cutout.number
  cases hnumber : c.numbers[v]?.join with
  | some i =>
      have hi : used[i]? = some v := (h.numbered v i).mp (Option.join_eq_some_iff.mp hnumber)
      have hagain := h.again (List.mem_of_getElem? hi)
      exact ⟨i, c, used, rfl, List.prefix_refl used, hi, { h with toFirstOccurrences := hagain }, rfl⟩
  | none =>
      have hnew : v ∉ used := fun hmem => by
        obtain ⟨i, hi⟩ := List.mem_iff_getElem?.mp hmem
        rw [(h.numbered v i).mpr hi] at hnumber
        cases hnumber
      have hsize : c.points.size = used.length := by
        rw [← Array.length_toList, h.points, List.length_map]
      refine ⟨_, _, used ++ [v], rfl, List.prefix_append used [v], ?_, ⟨h.concat hnew, ?_, fun w i => ?_, ?_⟩, rfl⟩
      · exact getElem?_concat_eq_some_iff.mpr (Or.inr ⟨hsize, rfl⟩)
      · simp only [Array.toList_push, h.points, List.map_append, List.map_singleton]
      · rw [getElem?_concat_eq_some_iff, Array.getElem?_setIfInBounds, ← h.numbered, hsize]
        by_cases hw : v = w
        · subst hw
          have hfree : c.numbers[v]? ≠ some (some i) := fun hi => by
            rw [hi] at hnumber
            cases hnumber
          rw [if_pos rfl, if_pos (h.size ▸ hv), or_iff_right hfree, Option.some_inj, Option.some_inj]
          exact ⟨fun heq => ⟨heq.symm, rfl⟩, fun heq => heq.1.symm⟩
        · simp [hw]
      · simp only [Array.size_setIfInBounds, h.size]

/-! ### Visiting faces -/

end Cutout

/-- The centroid of a face is inside the paths. -/
def Subdivision.isInside (s : Subdivision α) (paths : List (Path α)) (face : Triangle) : Bool :=
  pathsContain paths (centroid (s.position face.a) (s.position face.b) (s.position face.c))

namespace Cutout

/-- The vertices of some faces are listed, and those inside the paths are kept. -/
structure Cuts (s : Subdivision α) (paths : List (Path α)) (faces : List Triangle) (used : List Nat)
    (c : Cutout α) : Prop extends Lists s (faces.flatMap Triangle.toList) used c where
  /-- The triangles kept name the corners of the faces inside, in order. -/
  kept : List.Forall₂ (Triangle.Names used) c.triangles.toList (faces.filter (s.isInside paths))

theorem visit_eq {face : Triangle} {i j k : Nat} {c₁ c₂ c₃ : Cutout α} (hi : c.number s face.a = (i, c₁))
    (hj : c₁.number s face.b = (j, c₂)) (hk : c₂.number s face.c = (k, c₃)) :
    c.visit s paths face =
      if pathsContain paths (centroid (c₃.point i) (c₃.point j) (c₃.point k)) then
        { c₃ with triangles := c₃.triangles.push ⟨i, j, k⟩ }
      else c₃ := by
  simp only [Cutout.visit, hi, hj, hk]

/-- **Visiting a face.**  It is kept if it is inside, and its vertices are numbered in any case. -/
theorem Cuts.visit {faces : List Triangle} (h : Cuts s paths faces used c) {face : Triangle}
    (hface : face.Below s.positions.size) :
    ∃ more, Cuts s paths (faces ++ [face]) more (c.visit s paths face) := by
  obtain ⟨i, c₁, used₁, hi, hused₁, ha, h₁, ht₁⟩ := h.toLists.number hface.1
  obtain ⟨j, c₂, used₂, hj, hused₂, hb, h₂, ht₂⟩ := h₁.number hface.2.1
  obtain ⟨k, c₃, used₃, hk, hused₃, hc, h₃, ht₃⟩ := h₂.number hface.2.2
  have hnames : Triangle.Names used₃ ⟨i, j, k⟩ face :=
    ⟨getElem?_of_isPrefix ha (hused₂.trans hused₃), getElem?_of_isPrefix hb hused₃, hc⟩
  have hlists : Lists s ((faces ++ [face]).flatMap Triangle.toList) used₃ c₃ := by
    rw [List.append_assoc, List.append_assoc] at h₃
    rwa [List.flatMap_append, List.flatMap_singleton]
  have hinside : pathsContain paths (centroid (c₃.point i) (c₃.point j) (c₃.point k)) = s.isInside paths face := by
    simp only [Cutout.point, hlists.point hnames.1, hlists.point hnames.2.1, hlists.point hnames.2.2]
    rfl
  have hkept : List.Forall₂ (Triangle.Names used₃) c₃.triangles.toList (faces.filter (s.isInside paths)) := by
    rw [ht₃, ht₂, ht₁]
    exact h.kept.imp fun _ _ hn => hn.mono ((hused₁.trans hused₂).trans hused₃)
  refine ⟨used₃, ?_⟩
  rw [visit_eq hi hj hk, hinside]
  cases hface : s.isInside paths face with
  | true =>
      rw [if_pos rfl]
      refine ⟨⟨hlists.toFirstOccurrences, hlists.points, hlists.numbered, hlists.size⟩, ?_⟩
      rw [List.filter_append, List.filter_singleton, hface, Array.toList_push]
      exact List.rel_append hkept (.cons hnames .nil)
  | false =>
      rw [if_neg Bool.false_ne_true]
      refine ⟨hlists, ?_⟩
      rwa [List.filter_append, List.filter_singleton, hface, cond_false, List.append_nil]

theorem cuts_start (s : Subdivision α) (paths : List (Path α)) :
    Cuts s paths [] [] { numbers := Array.replicate s.positions.size none } := by
  refine ⟨⟨.nil, rfl, fun v i => ?_, Array.size_replicate⟩, .nil⟩
  rw [Array.getElem?_replicate]
  split <;> simp

/-- **Visiting some faces more.** -/
theorem Cuts.foldl : ∀ (fs : List Triangle) {faces : List Triangle} {used : List Nat} {c : Cutout α},
    Cuts s paths faces used c → (∀ face ∈ fs, face.Below s.positions.size) →
      ∃ more, Cuts s paths (faces ++ fs) more (fs.foldl (Cutout.visit s paths) c)
  | [], faces, used, c, h, _ => ⟨used, by rwa [List.append_nil]⟩
  | face :: fs, faces, used, c, h, hfs => by
      obtain ⟨hface, hfs⟩ := List.forall_mem_cons.mp hfs
      obtain ⟨more, hmore⟩ := h.visit hface
      rw [List.foldl_cons, List.append_cons]
      exact foldl fs hmore hfs

end Cutout

/-- All faces of a subdivision visited. -/
theorem Subdivision.exists_cuts (hs : ∀ face ∈ s.faces, face.Below s.positions.size) (paths : List (Path α)) :
    ∃ used, Cutout.Cuts s paths s.faces used (s.cutout paths) :=
  (Cutout.cuts_start s paths).foldl s.faces hs

/-! ### Range -/

namespace Cutout

/-- All numbers and all triangles name points. -/
structure IsSound (c : Cutout α) : Prop where
  /-- Numbers in the table are numbers of points. -/
  numbers : ∀ v i : Nat, c.numbers[v]? = some (some i) → i < c.points.size
  /-- Triangles have all their corners. -/
  triangles : ∀ t ∈ c.triangles, t.Below c.points.size

omit [Scalar α] in
theorem IsSound.mono {points : Array (Vec2 α)} (h : c.IsSound) (hle : c.points.size ≤ points.size) :
    ∀ t ∈ c.triangles, t.Below points.size := by
  intro t ht
  obtain ⟨ha, hb, hc⟩ := h.triangles t ht
  exact ⟨Nat.lt_of_lt_of_le ha hle, Nat.lt_of_lt_of_le hb hle, Nat.lt_of_lt_of_le hc hle⟩

theorem IsSound.number (h : c.IsSound) (s : Subdivision α) (v : Nat) :
    ∃ i d, c.number s v = (i, d) ∧ d.IsSound ∧ i < d.points.size ∧ c.points.size ≤ d.points.size := by
  unfold Cutout.number
  cases hnumber : c.numbers[v]?.join with
  | some i => exact ⟨i, c, rfl, h, h.numbers v i (Option.join_eq_some_iff.mp hnumber), Nat.le_refl _⟩
  | none =>
      have hgrow : c.points.size < (c.points.push (s.position v)).size := by
        rw [Array.size_push]
        exact Nat.lt_succ_self _
      refine ⟨_, _, rfl, ⟨fun w i hi => ?_, h.mono (Nat.le_of_lt hgrow)⟩, hgrow, Nat.le_of_lt hgrow⟩
      rw [Array.getElem?_setIfInBounds] at hi
      split at hi
      · split at hi
        · obtain rfl : c.points.size = i := by simpa using hi
          exact hgrow
        · cases hi
      · exact Nat.lt_trans (h.numbers w i hi) hgrow

theorem IsSound.visit (h : c.IsSound) (s : Subdivision α) (paths : List (Path α)) (face : Triangle) :
    (c.visit s paths face).IsSound := by
  obtain ⟨i, c₁, hi, h₁, hi₁, _⟩ := h.number s face.a
  obtain ⟨j, c₂, hj, h₂, hj₂, hle₂⟩ := h₁.number s face.b
  obtain ⟨k, c₃, hk, h₃, hk₃, hle₃⟩ := h₂.number s face.c
  rw [visit_eq hi hj hk]
  split
  · refine ⟨h₃.numbers, fun t ht => ?_⟩
    rcases Array.mem_push.mp ht with ht | rfl
    · exact h₃.triangles t ht
    · exact ⟨Nat.lt_of_lt_of_le hi₁ (Nat.le_trans hle₂ hle₃), Nat.lt_of_lt_of_le hj₂ hle₃, hk₃⟩
  · exact h₃

end Cutout

namespace Subdivision

theorem isSound_cutout (s : Subdivision α) (paths : List (Path α)) : (s.cutout paths).IsSound := by
  refine List.foldlRecOn s.faces (Cutout.visit s paths) ⟨fun v i hi => ?_, nofun⟩
    fun c h face _ => h.visit s paths face
  rw [Array.getElem?_replicate] at hi
  split at hi <;> simp at hi

/-- No triangle that is cut out names a missing point. -/
theorem below_of_interior {t : Triangulation α} (h : s.interior paths = .ok t) :
    ∀ i ∈ t.triangles, i.Below t.points.size := by
  unfold interior at h
  dsimp only at h
  split at h
  · cases h
  · cases h
    exact fun i hi => (s.isSound_cutout paths).triangles i (Array.mem_toList_iff.mp hi)

/-- Caps over what is cut out never fail. -/
theorem exists_caps_of_interior {t : Triangulation α} (h : s.interior paths = .ok t) (height : α) :
    ∃ caps, Extrusion.caps t height = .ok caps :=
  ⟨_, (Extrusion.caps_eq_ok_iff t height _).mpr ⟨below_of_interior h, rfl⟩⟩

/-! ### What is cut out -/

theorem getElem?_positions {v : Nat} (hv : v < s.positions.size) :
    s.positions[v]? = some (s.position v) := by
  rw [position, Array.getElem?_eq_getElem hv, Option.getD_some]

end Subdivision

theorem Triangle.Below.lt_of_mem {t : Triangle} {n v : Nat} (h : t.Below n) (hv : v ∈ t.toList) : v < n := by
  simp only [toList, List.mem_cons, List.not_mem_nil, or_false] at hv
  rcases hv with rfl | rfl | rfl
  · exact h.1
  · exact h.2.1
  · exact h.2.2

namespace Cutout

/-- A triangle that names a face over the vertices met has the corners of the face. -/
theorem Lists.corners? (h : Lists s seen used c) {t face : Triangle} (hn : t.Names used face) :
    c.triangulation.corners? t = some (s.position face.a, s.position face.b, s.position face.c) := by
  unfold Triangulation.corners? triangulation
  rw [h.point hn.1, h.point hn.2.1, h.point hn.2.2]
  rfl

theorem Cuts.interior_eq (h : Cuts s paths s.faces used (s.cutout paths)) :
    s.interior paths =
      if ∃ face ∈ s.faces, s.isInside paths face then .ok (s.cutout paths).triangulation
      else .error (.triangulationFailed .emptyInterior) := by
  have hempty : (s.cutout paths).triangles.isEmpty = true ↔ ¬∃ face ∈ s.faces, s.isInside paths face = true := by
    have hlength := h.kept.length_eq
    rw [Array.isEmpty_iff_size_eq_zero, ← Array.length_toList, hlength, List.length_eq_zero_iff,
      List.filter_eq_nil_iff]
    simp only [not_exists, not_and]
  unfold Subdivision.interior
  by_cases hinside : ∃ face ∈ s.faces, s.isInside paths face = true
  · rw [if_pos hinside]
    exact if_neg fun hnone => hempty.mp hnone hinside
  · rw [if_neg hinside]
    exact if_pos (hempty.mpr hinside)

end Cutout

namespace Subdivision

/-- **The faces inside the paths are cut out, over the vertices of all faces.**  If the faces name vertices that are
there, the points are the positions of all vertices of faces, once each in the order in which they occur first, and
the triangles are the faces whose centroid is inside, in order, each with the corners of its face; without such a
face, and only then, there is no result.  Caps over a result never fail, and so not over one of the Delaunay
triangulator. -/
theorem interior_cuts_out :
    (∀ (s : Subdivision α) (paths : List (Path α)), (∀ face ∈ s.faces, face.Below s.positions.size) →
      ∃ used, FirstOccurrences used (s.faces.flatMap Triangle.toList) ∧
        (s.cutout paths).points.toList.map some = used.map (s.positions[·]?) ∧
        List.Forall₂ (fun t face => t.Names used face ∧
            (s.cutout paths).triangulation.corners? t =
              some (s.position face.a, s.position face.b, s.position face.c))
          (s.cutout paths).triangulation.triangles (s.faces.filter (s.isInside paths)) ∧
        s.interior paths =
          if ∃ face ∈ s.faces, s.isInside paths face then .ok (s.cutout paths).triangulation
          else .error (.triangulationFailed .emptyInterior)) ∧
      (∀ (s : Subdivision α) (paths : List (Path α)) (t : Triangulation α) (height : α),
        s.interior paths = .ok t → ∃ caps, Extrusion.caps t height = .ok caps) ∧
      ∀ (paths : List (Path Float)) (t : Triangulation Float) (height : Float),
        Delaunay.triangulator paths = .ok t → ∃ caps, Extrusion.caps t height = .ok caps := by
  refine ⟨fun s paths hs => ?_, fun s paths t height h => exists_caps_of_interior h height, fun paths t height h => ?_⟩
  · obtain ⟨used, hcuts⟩ := exists_cuts hs paths
    refine ⟨used, hcuts.toFirstOccurrences, ?_, ?_, ?_⟩
    · rw [hcuts.points, List.map_map]
      refine List.map_congr_left fun v hv => ?_
      obtain ⟨face, hface, hmem⟩ := List.mem_flatMap.mp ((hcuts.mem_iff v).mp hv)
      exact (getElem?_positions ((hs face hface).lt_of_mem hmem)).symm
    · exact hcuts.kept.imp fun t face hn => ⟨hn, hcuts.corners? hn⟩
    · exact hcuts.interior_eq
  · unfold Delaunay.triangulator at h
    split at h
    · cases h
    · exact exists_caps_of_interior h height

/-- A square cut along a diagonal: the half visited first is left out, but its vertices are numbered first. -/
theorem interior_cuts_out_half :
    let s : Subdivision Float :=
      { positions := #[⟨4, 0⟩, ⟨4, 4⟩, ⟨0, 4⟩, ⟨0, 0⟩], faces := [⟨0, 1, 2⟩, ⟨3, 0, 2⟩] }
    let paths : List (Path Float) := [[⟨0, 0⟩, ⟨4, 0⟩, ⟨0, 4⟩]]
    (∀ face ∈ s.faces, face.Below s.positions.size) ∧
      (∃ used, FirstOccurrences used [0, 1, 2, 3, 0, 2] ∧
        (s.cutout paths).points.toList.map some = used.map (s.positions[·]?)) ∧
      s.interior paths = .ok (s.cutout paths).triangulation ∧
      ∃ caps, Extrusion.caps (s.cutout paths).triangulation 1 = .ok caps := by
  intro s paths
  have hs : ∀ face ∈ s.faces, face.Below s.positions.size := by
    simp [s, Triangle.Below]
  obtain ⟨hcuts, hcaps, -⟩ := interior_cuts_out (α := Float)
  obtain ⟨used, hused, hpoints, -, hinterior⟩ := hcuts s paths hs
  have hinside : ∃ face ∈ s.faces, s.isInside paths face := ⟨⟨3, 0, 2⟩, by simp [s], by decide⟩
  rw [if_pos hinside] at hinterior
  exact ⟨hs, ⟨used, hused, hpoints⟩, hinterior, hcaps s paths _ 1 hinterior⟩

end Subdivision

end TriMesh
