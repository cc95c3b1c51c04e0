import TriMesh.Mesh
import TriMesh.Proofs.ExtrusionLayout
import TriMesh.Proofs.ScalarOrder
import TriMesh.Proofs.SpaceVectors

/-! # Bounding boxes

The box of a mesh, over scalars that are ordered: doubles without undefined ones, and exact numbers.

* Along each axis the box reaches from one of the coordinates to another, and all are in between
  (`Scalar.IsRange`, `IsLeastBox`).  Equal places, in whatever order and however often, have equal boxes
  (`IsLeastBox.beq`), where the two zeros count as equal.
* The box around two such boxes is the least around all their places (`IsLeastBox.join`), and so is the fold
  over any number of them.  A submesh folds over its vertices, a mesh over the boxes of those submeshes that
  have one (`SubMesh.isLeastBox`, `Mesh.isLeastBox`).
* So a mesh has the box of its vertices in one submesh, and everything else is read off them. -/

namespace TriMesh

/-! ### Ranges -/

namespace Scalar

variable {α : Type} [Scalar α] [Ordered α] {lo hi lo' hi' x : α} {xs ys : List α}

/-- The least and the greatest of some scalars, both of them among these. -/
structure IsRange {α : Type} [Scalar α] (lo hi : α) (xs : List α) : Prop where
  /-- All are in between. -/
  bounds : ∀ x ∈ xs, lo ≤ x ∧ x ≤ hi
  /-- The lower bound is attained. -/
  lo_mem : lo ∈ xs
  /-- The upper bound is attained. -/
  hi_mem : hi ∈ xs

omit [Ordered α] in
theorem isRange_singleton (hx : x ≤ x) : IsRange x x [x] := by
  refine ⟨fun y hy => ?_, List.mem_singleton_self x, List.mem_singleton_self x⟩
  rw [List.mem_singleton.mp hy]
  exact ⟨hx, hx⟩

/-- Two ranges together reach from the lesser lower to the greater upper bound. -/
theorem IsRange.append (h : IsRange lo hi xs) (h' : IsRange lo' hi' ys) :
    IsRange (Scalar.min lo lo') (Scalar.max hi hi') (xs ++ ys) := by
  have hlo := (h.bounds lo h.lo_mem).1
  have hhi := (h.bounds hi h.hi_mem).2
  have hlo' := (h'.bounds lo' h'.lo_mem).1
  have hhi' := (h'.bounds hi' h'.hi_mem).2
  have hmin := min_le hlo hlo'
  have hmax := le_max hhi hhi'
  refine ⟨fun x hx => ?_, ?_, ?_⟩
  · rcases List.mem_append.mp hx with hx | hx
    · exact ⟨Ordered.trans hmin.1 (h.bounds x hx).1, Ordered.trans (h.bounds x hx).2 hmax.1⟩
    · exact ⟨Ordered.trans hmin.2 (h'.bounds x hx).1, Ordered.trans (h'.bounds x hx).2 hmax.2⟩
  · rcases min_eq_or hlo' with heq | heq <;> rw [heq]
    · exact List.mem_append_left ys h.lo_mem
    · exact List.mem_append_right xs h'.lo_mem
  · rcases max_eq_or hhi' with heq | heq <;> rw [heq]
    · exact List.mem_append_left ys h.hi_mem
    · exact List.mem_append_right xs h'.hi_mem

/-- Equal scalars have equal ranges. -/
theorem IsRange.beq (h : IsRange lo hi xs) (h' : IsRange lo' hi' ys) (hmem : ∀ x, x ∈ xs ↔ x ∈ ys) :
    (lo == lo') = true ∧ (hi == hi') = true := by
  have hlo := h.bounds lo' ((hmem lo').mpr h'.lo_mem)
  have hhi := h.bounds hi' ((hmem hi').mpr h'.hi_mem)
  have hlo' := h'.bounds lo ((hmem lo).mp h.lo_mem)
  have hhi' := h'.bounds hi ((hmem hi).mp h.hi_mem)
  exact ⟨Ordered.beq_iff.mpr ⟨hlo.1, hlo'.1⟩, Ordered.beq_iff.mpr ⟨hhi'.2, hhi.2⟩⟩

end Scalar

/-! ### Boxes -/

/-- One of the three axes of space. -/
inductive Axis where
  | x
  | y
  | z

section boxes
variable {α : Type} [Scalar α]

/-- The coordinate of a point along an axis. -/
def Vec3.along (v : Vec3 α) : Axis → α
  | .x => v.x
  | .y => v.y
  | .z => v.z

/-- All coordinates are numbers. -/
def Vec3.IsNumeric (v : Vec3 α) : Prop := ∀ k, v.along k ≤ v.along k

/-- The least box around some points: along each axis all are in between, and both bounds are attained. -/
def IsLeastBox (box : Vec3 α × Vec3 α) (vs : List (Vec3 α)) : Prop :=
  ∀ k : Axis, Scalar.IsRange (box.1.along k) (box.2.along k) (vs.map (·.along k))

theorem Vec3.along_min (v w : Vec3 α) (k : Axis) : (v.min w).along k = Scalar.min (v.along k) (w.along k) := by
  cases k <;> rfl

theorem Vec3.along_max (v w : Vec3 α) (k : Axis) : (v.max w).along k = Scalar.max (v.along k) (w.along k) := by
  cases k <;> rfl

/-- Points are compared axis by axis. -/
theorem Vec3.beq_iff_along {v w : Vec3 α} : (v == w) = true ↔ ∀ k, (v.along k == w.along k) = true := by
  constructor
  · intro h k
    obtain ⟨hxy, hz⟩ := (Bool.and_eq_true _ _).mp h
    obtain ⟨hx, hy⟩ := (Bool.and_eq_true _ _).mp hxy
    cases k with
    | x => exact hx
    | y => exact hy
    | z => exact hz
  · intro h
    exact (Bool.and_eq_true _ _).mpr ⟨(Bool.and_eq_true _ _).mpr ⟨h .x, h .y⟩, h .z⟩

theorem isLeastBox_point {v : Vec3 α} (hv : v.IsNumeric) : IsLeastBox (v, v) [v] :=
  fun k => Scalar.isRange_singleton (hv k)

variable [Scalar.Ordered α]

namespace IsLeastBox

variable {box box' : Vec3 α × Vec3 α} {vs ws : List (Vec3 α)}

theorem join (h : IsLeastBox box vs) (h' : IsLeastBox box' ws) : IsLeastBox (Mesh.joinBoxes box box') (vs ++ ws) := by
  intro k
  have hrange := (h k).append (h' k)
  rwa [← Vec3.along_min, ← Vec3.along_max, ← List.map_append] at hrange

/-- Any number of boxes joined one after the other. -/
theorem foldl_join {boxes : List (Vec3 α × Vec3 α)} {vss : List (List (Vec3 α))}
    (hs : List.Forall₂ IsLeastBox boxes vss) :
    ∀ {box vs}, IsLeastBox box vs → IsLeastBox (boxes.foldl Mesh.joinBoxes box) (vs ++ vss.flatten) := by
  induction hs with
  | nil =>
      intro box vs h
      rwa [List.flatten_nil, List.append_nil]
  | cons hhead _ ih =>
      intro box vs h
      rw [List.foldl_cons, List.flatten_cons, ← List.append_assoc]
      exact ih (h.join hhead)

/-- Equal places have equal boxes. -/
theorem beq (h : IsLeastBox box vs) (h' : IsLeastBox box' ws) (hmem : ∀ v, v ∈ vs ↔ v ∈ ws) :
    (box == box') = true := by
  have hrange (k : Axis) := (h k).beq (h' k) fun x => by simp only [List.mem_map, hmem]
  have hlo : (box.1 == box'.1) = true := Vec3.beq_iff_along.mpr fun k => (hrange k).1
  have hhi : (box.2 == box'.2) = true := Vec3.beq_iff_along.mpr fun k => (hrange k).2
  exact (Bool.and_eq_true _ _).mpr ⟨hlo, hhi⟩

end IsLeastBox

end boxes

/-! ### Places of a mesh -/

namespace Mesh

section points
variable {α : Type} {m n : Mesh α}

/-- The vertices of all submeshes. -/
def points (m : Mesh α) : List (Vec3 α) := m.submeshes.toList.flatMap fun s => s.vertices.toList

/-- All submeshes put behind each other. -/
def joined (m : Mesh α) : SubMesh α := m.submeshes.toList.foldl (· ++ ·) SubMesh.empty

theorem vertices_joined : m.joined.vertices.toList = m.points :=
  SubMesh.toList_foldl_append SubMesh.vertices (fun _ _ => rfl) _ _

theorem points_ne_nil_iff : m.points ≠ [] ↔ m.isEmpty = false := by
  have hempty : m.isEmpty = true ↔ m.points = [] := by
    simp only [isEmpty, SubMesh.isEmpty, points, Array.all_eq_true', List.flatMap_eq_nil_iff,
      Array.mem_toList_iff, Array.isEmpty_iff, Array.toList_eq_nil_iff]
  rw [Ne, ← hempty, Bool.not_eq_true]

theorem points_merge : (m.merge n).points = m.points ++ n.points := by
  unfold points merge
  rw [Array.toList_append, List.flatMap_append]

theorem points_translate [Scalar α] (offset : Vec3 α) :
    (m.translate offset).points = m.points.map (· + offset) := by
  unfold points translate mapSubMeshes SubMesh.translate
  simp only [Array.toList_map, List.flatMap_map, List.map_flatMap]

end points

end Mesh

/-! ### Submeshes and meshes -/

section meshes
variable {α : Type} [Scalar α]

theorem forall₂_isLeastBox_point {vs : List (Vec3 α)} (hvs : ∀ v ∈ vs, v.IsNumeric) :
    List.Forall₂ IsLeastBox (vs.map fun v => (v, v)) (vs.map fun v => [v]) := by
  rw [List.forall₂_map_left_iff, List.forall₂_map_right_iff, List.forall₂_same]
  exact fun v hv => isLeastBox_point (hvs v hv)

variable [Scalar.Ordered α]

/-- A submesh has the least box around its vertices if it has any of these, and otherwise none. -/
theorem SubMesh.isLeastBox {s : SubMesh α} (hs : ∀ v ∈ s.vertices.toList, v.IsNumeric) :
    (s.boundingBox = none ∧ s.vertices.toList = []) ∨
      ∃ box, s.boundingBox = some box ∧ IsLeastBox box s.vertices.toList := by
  unfold boundingBox
  cases hvertices : s.vertices.toList with
  | nil => exact Or.inl ⟨rfl, rfl⟩
  | cons v vs =>
      rw [hvertices] at hs
      obtain ⟨hv, hvs⟩ := List.forall_mem_cons.mp hs
      have hbox := IsLeastBox.foldl_join (forall₂_isLeastBox_point hvs) (isLeastBox_point hv)
      rw [← List.flatMap_def, List.flatMap_singleton', List.foldl_map] at hbox
      exact Or.inr ⟨_, rfl, hbox⟩

namespace Mesh

variable {m n : Mesh α}

/-- The boxes of those submeshes that have one are around all vertices. -/
theorem exists_isLeastBox {ss : List (SubMesh α)} :
    (∀ v ∈ ss.flatMap fun s => s.vertices.toList, v.IsNumeric) →
      ∃ vss, List.Forall₂ IsLeastBox (ss.filterMap SubMesh.boundingBox) vss ∧
        vss.flatten = ss.flatMap fun s => s.vertices.toList := by
  induction ss with
  | nil => exact fun _ => ⟨[], List.Forall₂.nil, rfl⟩
  | cons s ss ih =>
      intro hss
      rw [List.flatMap_cons, List.forall_mem_append] at hss
      obtain ⟨vss, hboxes, hflatten⟩ := ih hss.2
      rw [List.flatMap_cons]
      rcases SubMesh.isLeastBox hss.1 with ⟨hnone, hnil⟩ | ⟨box, hsome, hbox⟩
      · refine ⟨vss, ?_, ?_⟩
        · rwa [List.filterMap_cons_none hnone]
        · rw [hflatten, hnil, List.nil_append]
      · refine ⟨s.vertices.toList :: vss, ?_, ?_⟩
        · rw [List.filterMap_cons_some hsome]
          exact List.Forall₂.cons hbox hboxes
        · rw [List.flatten_cons, hflatten]

/-- The origin does not stand in for a mesh with a vertex. -/
theorem isLeastBox (hm : ∀ v ∈ m.points, v.IsNumeric) (hne : m.points ≠ []) :
    IsLeastBox m.boundingBox m.points := by
  obtain ⟨vss, hboxes, hflatten⟩ := exists_isLeastBox hm
  change vss.flatten = m.points at hflatten
  rw [← hflatten] at hne ⊢
  unfold boundingBox
  cases hlist : m.submeshes.toList.filterMap SubMesh.boundingBox with
  | nil =>
      rw [hlist] at hboxes
      cases hboxes
      exact absurd List.flatten_nil hne
  | cons box boxes =>
      rw [hlist] at hboxes
      cases hboxes with
      | cons hhead htail => exact IsLeastBox.foldl_join htail hhead

/-- A mesh has the box of its vertices in one submesh. -/
theorem exists_boundingBox_joined (hm : ∀ v ∈ m.points, v.IsNumeric) (hne : m.points ≠ []) :
    ∃ box, m.joined.boundingBox = some box ∧ (m.boundingBox == box) = true := by
  have hjoined : ∀ v ∈ m.joined.vertices.toList, v.IsNumeric := by
    rwa [vertices_joined]
  rcases SubMesh.isLeastBox hjoined with ⟨-, hnil⟩ | ⟨box, hsome, hbox⟩
  · rw [vertices_joined] at hnil
    exact absurd hnil hne
  · rw [vertices_joined] at hbox
    exact ⟨box, hsome, (isLeastBox hm hne).beq hbox fun _ => Iff.rfl⟩

theorem boundingBox_merge_beq (hm : ∀ v ∈ m.points, v.IsNumeric) (hmne : m.points ≠ [])
    (hn : ∀ v ∈ n.points, v.IsNumeric) (hnne : n.points ≠ []) :
    ((m.merge n).boundingBox == joinBoxes m.boundingBox n.boundingBox) = true := by
  have hmerge : ∀ v ∈ (m.merge n).points, v.IsNumeric := by
    rw [points_merge]
    exact List.forall_mem_append.mpr ⟨hm, hn⟩
  have hne : (m.merge n).points ≠ [] := by
    rw [points_merge]
    exact List.append_ne_nil_of_left_ne_nil hmne _
  have hjoin := (isLeastBox hm hmne).join (isLeastBox hn hnne)
  rw [← points_merge] at hjoin
  exact (isLeastBox hmerge hne).beq hjoin fun _ => Iff.rfl

end Mesh

end meshes

/-! ### Exact scalars -/

section exact
variable {box : Vec3 ℝ × Vec3 ℝ} {vs : List (Vec3 ℝ)}

theorem Vec3.isNumeric_real (v : Vec3 ℝ) : v.IsNumeric := fun _ => le_refl _

theorem Vec3.along_add (v w : Vec3 ℝ) (k : Axis) : (v + w).along k = v.along k + w.along k := by
  cases k <;> rfl

theorem Vec3.eq_of_beq {v w : Vec3 ℝ} (h : (v == w) = true) : v = w := by
  have halong (k : Axis) : v.along k = w.along k := decide_eq_true_iff.mp (beq_iff_along.mp h k)
  exact Vec3.ext (halong .x) (halong .y) (halong .z)

/-- Exact points have one least box. -/
theorem IsLeastBox.eq {box' : Vec3 ℝ × Vec3 ℝ} (h : IsLeastBox box vs) (h' : IsLeastBox box' vs) : box = box' := by
  obtain ⟨hlo, hhi⟩ := (Bool.and_eq_true _ _).mp (h.beq h' fun _ => Iff.rfl)
  exact Prod.ext (Vec3.eq_of_beq hlo) (Vec3.eq_of_beq hhi)

/-- Moved points have a box that is moved with them. -/
theorem IsLeastBox.translate (h : IsLeastBox box vs) (offset : Vec3 ℝ) :
    IsLeastBox (box.1 + offset, box.2 + offset) (vs.map (· + offset)) := by
  intro k
  have hcoordinates : (vs.map (· + offset)).map (·.along k) = (vs.map (·.along k)).map (· + offset.along k) := by
    simp only [List.map_map, Function.comp_def, Vec3.along_add]
  rw [hcoordinates, Vec3.along_add, Vec3.along_add]
  refine ⟨fun x hx => ?_, List.mem_map_of_mem (h k).lo_mem, List.mem_map_of_mem (h k).hi_mem⟩
  obtain ⟨y, hy, rfl⟩ := List.mem_map.mp hx
  obtain ⟨hlo, hhi⟩ := (h k).bounds y hy
  exact ⟨add_le_add_left hlo _, add_le_add_left hhi _⟩

namespace Mesh

variable {m : Mesh ℝ}

theorem boundingBox_translate (hne : m.points ≠ []) (offset : Vec3 ℝ) :
    (m.translate offset).boundingBox = (m.boundingBox.1 + offset, m.boundingBox.2 + offset) := by
  have hmoved := (isLeastBox (fun v _ => v.isNumeric_real) hne).translate offset
  rw [← points_translate] at hmoved
  refine (isLeastBox (fun v _ => v.isNumeric_real) ?_).eq hmoved
  rw [points_translate]
  exact mt List.map_eq_nil_iff.mp hne

theorem center_translate (hne : m.points ≠ []) (offset : Vec3 ℝ) :
    (m.translate offset).center = m.center + offset := by
  unfold center
  rw [boundingBox_translate hne]
  ext <;> simp only [Vec3.mul_x, Vec3.mul_y, Vec3.mul_z, Vec3.add_x, Vec3.add_y, Vec3.add_z, Scalar.real_half] <;> ring

end Mesh

end exact

/-! ### Doubles -/

/-- Some coordinate is undefined. -/
def Vec3.hasNaN (v : Vec3 Float) : Bool := v.x.isNaN || v.y.isNaN || v.z.isNaN

theorem Vec3.isNumeric_of_hasNaN {v : Vec3 Float} (hv : v.hasNaN = false) : v.IsNumeric := by
  simp only [hasNaN, Bool.or_eq_false_iff] at hv
  obtain ⟨⟨hx, hy⟩, hz⟩ := hv
  intro k
  cases k with
  | x => exact Scalar.le_self_iff.mpr hx
  | y => exact Scalar.le_self_iff.mpr hy
  | z => exact Scalar.le_self_iff.mpr hz

namespace Mesh

/-- A mesh of doubles with a vertex and without undefined coordinates has the least box around all its vertices.
This is the box of its submeshes put behind each other and of every mesh with the same vertices, and two
meshes merged have their boxes joined, all up to the signs of zeros.  A mesh with exact scalars takes its box
and its center along when it is moved. -/
theorem boundingBox_least :
    (∀ m : Mesh Float, (∀ v ∈ m.points, v.hasNaN = false) → m.isEmpty = false →
      IsLeastBox m.boundingBox m.points ∧
      (∃ box, m.joined.boundingBox = some box ∧ (m.boundingBox == box) = true) ∧
      (∀ n : Mesh Float, (∀ v, v ∈ n.points ↔ v ∈ m.points) → (m.boundingBox == n.boundingBox) = true) ∧
      ∀ n : Mesh Float, (∀ v ∈ n.points, v.hasNaN = false) → n.isEmpty = false →
        ((m.merge n).boundingBox == joinBoxes m.boundingBox n.boundingBox) = true) ∧
    ∀ (m : Mesh ℝ) (offset : Vec3 ℝ), m.isEmpty = false →
      (m.translate offset).boundingBox = (m.boundingBox.1 + offset, m.boundingBox.2 + offset) ∧
      (m.translate offset).center = m.center + offset := by
  constructor
  · intro m hm hne
    have hm : ∀ v ∈ m.points, v.IsNumeric := fun v hv => Vec3.isNumeric_of_hasNaN (hm v hv)
    have hne := points_ne_nil_iff.mpr hne
    have hbox := isLeastBox hm hne
    refine ⟨hbox, exists_boundingBox_joined hm hne, fun n hmem => ?_, fun n hn hnne => ?_⟩
    · obtain ⟨v, hv⟩ := List.exists_mem_of_ne_nil _ hne
      have hbox' := isLeastBox (fun w hw => hm w ((hmem w).mp hw)) (List.ne_nil_of_mem ((hmem v).mpr hv))
      exact hbox.beq hbox' fun v => (hmem v).symm
    · exact boundingBox_merge_beq hm hne (fun v hv => Vec3.isNumeric_of_hasNaN (hn v hv))
        (points_ne_nil_iff.mpr hnne)
  · intro m offset hne
    have hne := points_ne_nil_iff.mpr hne
    exact ⟨boundingBox_translate hne offset, center_translate hne offset⟩

/-- Two vertices around a submesh without any, and the same two in one submesh, one of them with a zero below
zero and an infinite height. -/
theorem boundingBox_least_apart :
    let near : SubMesh Float := { vertices := #[⟨1, 0, 1⟩] }
    let far : SubMesh Float := { vertices := #[⟨-1, -0, 1 / 0⟩] }
    let m : Mesh Float := { submeshes := #[near, SubMesh.empty, far] }
    let n : Mesh Float := { submeshes := #[far ++ near] }
    let dot : Mesh ℝ := { submeshes := #[{ vertices := #[0] }] }
    ((∀ v ∈ m.points, v.hasNaN = false) ∧ m.isEmpty = false ∧ dot.isEmpty = false) ∧
      IsLeastBox m.boundingBox m.points ∧ (m.boundingBox == n.boundingBox) = true ∧
      ((m.merge n).boundingBox == joinBoxes m.boundingBox n.boundingBox) = true ∧
      ∀ offset, (dot.translate offset).center = dot.center + offset := by
  intro near far m n dot
  have hm : ∀ v ∈ m.points, v.hasNaN = false := by decide
  have hn : ∀ v ∈ n.points, v.hasNaN = false := by decide
  have hmem : ∀ v, v ∈ n.points ↔ v ∈ m.points := fun v => (List.Perm.swap _ _ _).mem_iff
  have hmne : m.isEmpty = false := points_ne_nil_iff.mp (List.cons_ne_nil _ _)
  have hnne : n.isEmpty = false := points_ne_nil_iff.mp (List.cons_ne_nil _ _)
  have hdot : dot.isEmpty = false := points_ne_nil_iff.mp (List.cons_ne_nil _ _)
  obtain ⟨hdoubles, hexact⟩ := boundingBox_least
  obtain ⟨hbox, -, hsame, hmerge⟩ := hdoubles m hm hmne
  exact ⟨⟨hm, hmne, hdot⟩, hbox, hsame n hmem, hmerge n hn hnne, fun offset => (hexact dot offset hdot).2⟩

end Mesh

end TriMesh
