import TriMesh.Extrusion

/-! # Tidy paths

Which paths are left when paths are tidied, and when that is a normal form.

* A path is *tidy* if it has three points and does not end where it begins (`Path.IsTidy`).  Tidy paths
  are exactly those that tidying leaves as they are (`tidy_eq_self_iff`).
* Tidying drops one closing point.  A path that ends in two of them, with something between them and
  the first point, keeps one, so the result is in normal form, and tidying it again changes nothing,
  exactly if there is no such path (`tidy_normal_form_iff`).

Points are compared as scalars are, so nothing is asked of the scalars. -/

namespace TriMesh

variable {α : Type} [Scalar α]

namespace Path

/-- The path has more than one point, and its last point equals its first. -/
def IsClosed (path : Path α) : Prop :=
  ∃ first rest last, path = first :: rest ++ [last] ∧ (first == last) = true

/-- Three points or more, the last of them different from the first. -/
structure IsTidy (path : Path α) : Prop where
  /-- There is a triangle to be filled. -/
  three_le : 3 ≤ path.length
  /-- The edge back to the first point is implied. -/
  not_isClosed : ¬path.IsClosed

/-- The path has a point beside its first one, and behind that it ends twice where it begins. -/
def RepeatsClosing (path : Path α) : Prop :=
  ∃ first rest closing last, path = first :: rest ++ [closing, last] ∧ rest ≠ [] ∧
    (first == closing) = true ∧ (first == last) = true

/-! ### Dropping a closing point -/

theorem dropClosing_append (first : Vec2 α) (rest : Path α) (last : Vec2 α) :
    Path.dropClosing (first :: rest ++ [last]) =
      if first == last then first :: rest else first :: rest ++ [last] := by
  have hhead : (first :: rest ++ [last]).head? = some first := rfl
  have hlast : (first :: rest ++ [last]).getLast? = some last := List.getLast?_concat
  have hdrop : (first :: rest ++ [last]).dropLast = first :: rest := List.dropLast_concat
  have hlength : 1 < (first :: rest ++ [last]).length := by simp
  simp only [dropClosing, hhead, hlast, hdrop, hlength, true_and]

/-- Only closed paths change. -/
theorem dropClosing_of_not_isClosed {path : Path α} (h : ¬path.IsClosed) :
    path.dropClosing = path := by
  cases path with
  | nil => rfl
  | cons first rest =>
      rcases List.eq_nil_or_concat rest with rfl | ⟨rest, last, rfl⟩
      · simp [dropClosing]
      · have hne : ¬(first == last) = true := fun heq => h ⟨first, rest, last, by simp, heq⟩
        rw [List.concat_eq_append, ← List.cons_append, dropClosing_append, if_neg hne]

/-- A closed path loses its last point. -/
theorem dropClosing_of_eq {first last : Vec2 α} (rest : Path α) (h : (first == last) = true) :
    Path.dropClosing (first :: rest ++ [last]) = first :: rest := by
  rw [dropClosing_append, if_pos h]

theorem dropClosing_eq_self_iff (path : Path α) : path.dropClosing = path ↔ ¬path.IsClosed := by
  constructor
  · rintro h ⟨first, rest, last, rfl, heq⟩
    rw [dropClosing_of_eq rest heq] at h
    simpa using congrArg List.length h
  · exact dropClosing_of_not_isClosed

/-- What is left is closed exactly if one closing point stood before another. -/
theorem isClosed_dropClosing_iff {path : Path α} (h : 3 ≤ path.dropClosing.length) :
    path.dropClosing.IsClosed ↔ path.RepeatsClosing := by
  constructor
  · rintro ⟨first, rest, closing, heq, hclosing⟩
    -- a path that is not closed stays as it is, and is not closed afterwards
    have hpath : path.IsClosed := Classical.byContradiction fun hnot => by
      rw [dropClosing_of_not_isClosed hnot] at heq
      exact hnot ⟨first, rest, closing, heq, hclosing⟩
    obtain ⟨first', rest', last, rfl, hlast⟩ := hpath
    rw [dropClosing_of_eq rest' hlast] at heq h
    obtain ⟨rfl, rfl⟩ := List.cons.inj heq
    refine ⟨first', rest, closing, last, by simp, ?_, hclosing, hlast⟩
    rintro rfl
    simp at h
  · rintro ⟨first, rest, closing, last, rfl, _, hclosing, hlast⟩
    have hsplit : first :: rest ++ [closing, last] = first :: (rest ++ [closing]) ++ [last] := by simp
    rw [hsplit, dropClosing_of_eq _ hlast]
    exact ⟨first, rest, closing, rfl, hclosing⟩

theorem RepeatsClosing.three_le {path : Path α} (h : path.RepeatsClosing) :
    3 ≤ path.dropClosing.length := by
  obtain ⟨first, rest, closing, last, rfl, hrest, _, hlast⟩ := h
  have hsplit : first :: rest ++ [closing, last] = first :: (rest ++ [closing]) ++ [last] := by simp
  have hpos : 0 < rest.length := List.length_pos_iff.mpr hrest
  rw [hsplit, dropClosing_of_eq _ hlast, List.length_cons, List.length_append]
  simp only [List.length_singleton]
  omega

end Path

/-! ### Tidying all paths -/

namespace Extrusion

variable {paths : List (Path α)}

theorem mem_tidy_iff {path : Path α} :
    path ∈ tidy paths ↔ 3 ≤ path.length ∧ ∃ p ∈ paths, p.dropClosing = path := by
  simp only [tidy, List.mem_filter, List.mem_map, decide_eq_true_eq]
  exact and_comm

theorem three_le_of_mem_tidy {path : Path α} (h : path ∈ tidy paths) : 3 ≤ path.length :=
  (mem_tidy_iff.mp h).1

/-- Tidying leaves exactly tidy paths as they are. -/
theorem tidy_eq_self_iff : tidy paths = paths ↔ ∀ path ∈ paths, path.IsTidy := by
  constructor
  · intro h path hpath
    have hlong : ∀ p ∈ paths, 3 ≤ p.length := fun p hp => three_le_of_mem_tidy (h.symm ▸ hp)
    refine ⟨hlong path hpath, ?_⟩
    -- as many paths are left as there were, so that none was left out
    have hall : paths.map Path.dropClosing = paths := by
      have hlength : (tidy paths).length = (paths.map Path.dropClosing).length := by
        rw [h, List.length_map]
      rw [tidy] at h hlength
      rwa [List.filter_eq_self.mpr (List.length_filter_eq_length_iff.mp hlength)] at h
    rw [← List.map_id paths, List.map_map, List.map_inj_left] at hall
    exact path.dropClosing_eq_self_iff.mp (hall path hpath)
  · intro h
    have hid : paths.map Path.dropClosing = paths.map id :=
      List.map_congr_left fun path hpath =>
        Path.dropClosing_of_not_isClosed (h path hpath).not_isClosed
    have hmap : paths.map Path.dropClosing = paths := hid.trans (List.map_id paths)
    rw [tidy, hmap, List.filter_eq_self]
    exact fun path hpath => decide_eq_true (h path hpath).three_le

/-- What is left is tidy exactly if no path repeats its closing point. -/
theorem forall_isTidy_tidy_iff :
    (∀ path ∈ tidy paths, path.IsTidy) ↔ ∀ path ∈ paths, ¬path.RepeatsClosing := by
  constructor
  · intro h path hpath hrepeats
    have hmem : path.dropClosing ∈ tidy paths :=
      mem_tidy_iff.mpr ⟨hrepeats.three_le, path, hpath, rfl⟩
    exact (h _ hmem).not_isClosed ((Path.isClosed_dropClosing_iff hrepeats.three_le).mpr hrepeats)
  · intro h path hpath
    obtain ⟨hlength, p, hp, rfl⟩ := mem_tidy_iff.mp hpath
    exact ⟨hlength, fun hclosed => h p hp ((Path.isClosed_dropClosing_iff hlength).mp hclosed)⟩

/-- **Tidying reaches a normal form exactly if no path repeats its closing point.**  Every path that is
left has three points in any case; without such a path none of them ends where it begins, and tidying
again changes nothing, and with such a path neither holds. -/
theorem tidy_normal_form_iff (paths : List (Path α)) :
    (∀ path ∈ tidy paths, 3 ≤ path.length) ∧
      ((∀ path ∈ tidy paths, ¬path.IsClosed) ↔ ∀ path ∈ paths, ¬path.RepeatsClosing) ∧
      (tidy (tidy paths) = tidy paths ↔ ∀ path ∈ paths, ¬path.RepeatsClosing) := by
  refine ⟨fun path => three_le_of_mem_tidy, ?_, ?_⟩
  · rw [← forall_isTidy_tidy_iff]
    constructor
    · exact fun h path hpath => ⟨three_le_of_mem_tidy hpath, h path hpath⟩
    · exact fun h path hpath => (h path hpath).not_isClosed
  · rw [tidy_eq_self_iff, forall_isTidy_tidy_iff]

/-- A square that repeats its closing point keeps one, and so does a segment there and back, which is
left out only when it is tidied once more. -/
theorem tidy_keeps_closing :
    let origin : Vec2 Float := ⟨0, 0⟩
    let square : Path Float := [origin, ⟨1, 0⟩, ⟨1, 1⟩, ⟨0, 1⟩]
    let segment : Path Float := [origin, ⟨1, 0⟩]
    let left := tidy [square ++ [origin, origin], segment ++ [origin, origin]]
    left = [square ++ [origin], segment ++ [origin]] ∧ (∀ path ∈ left, path.IsClosed) ∧
      tidy left = [square] ∧ tidy left ≠ left := by
  intro origin square segment left
  have hdrop (rest : Path Float) :
      Path.dropClosing (origin :: rest ++ [origin]) = origin :: rest :=
    Path.dropClosing_of_eq rest (by decide)
  have hleft : left = [square ++ [origin], segment ++ [origin]] := by
    have hsquare : (square ++ [origin, origin]).dropClosing = square ++ [origin] :=
      hdrop (square.tail ++ [origin])
    have hsegment : (segment ++ [origin, origin]).dropClosing = segment ++ [origin] :=
      hdrop (segment.tail ++ [origin])
    simp only [left, tidy, List.map_cons, List.map_nil, hsquare, hsegment]
    rfl
  have hagain : tidy left = [square] := by
    have hsquare : (square ++ [origin]).dropClosing = square := hdrop square.tail
    have hsegment : (segment ++ [origin]).dropClosing = segment := hdrop segment.tail
    simp only [hleft, tidy, List.map_cons, List.map_nil, hsquare, hsegment]
    rfl
  refine ⟨hleft, ?_, hagain, ?_⟩
  · rw [hleft]
    intro path hpath
    simp only [List.mem_cons, List.not_mem_nil, or_false] at hpath
    rcases hpath with rfl | rfl
    · exact ⟨origin, _, origin, rfl, by decide⟩
    · exact ⟨origin, _, origin, rfl, by decide⟩
  · rw [hagain, hleft]
    intro h
    simpa using congrArg List.length h

end Extrusion

end TriMesh
