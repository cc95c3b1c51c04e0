import Mathlib.Data.List.Rotate
import TriMesh.Proofs.Crossings
import TriMesh.Proofs.PathOrientations

/-! # Cutting paths

Even-odd containment when paths are cut, relisted or retraced, read with exact scalars.

* An edge is crossed by the ray from a point exactly if its reverse is (`Edge.crosses_reverse`): it spans
  the same heights and meets them at the same places.
* A path cut along a chord between two of its corners leaves two paths, which have the edges of the path
  and the chord once each way (`countP_edges_cut`).  So the crossed edges of both are as many as those of
  the path, or two more, and a point is inside the path if it is inside exactly one of the two
  (`contains_cut`).  This asks nothing of the point, which may be on the chord or level with its ends.
* Beginning elsewhere keeps the edges of a path (`edges_rotate`), and walking back reverses them all; a
  point given twice adds an edge without length, which no ray crosses.
* The number of paths around a point has the parity of the number of their crossed edges
  (`countP_contains_mod_two`), so neither the order of the paths matters nor the way in which each is
  listed (`pathsContain_of_sameLoops`). -/

namespace TriMesh

/-! ### Edges walked backward -/

namespace Edge

variable {e : Edge ℝ} {h : ℝ}

theorem spans_reverse : e.reverse.Spans h ↔ e.Spans h := or_comm

/-- Both ways an edge meets a height that it spans at one place. -/
theorem meet_reverse (he : e.Spans h) : e.reverse.meet h = e.meet h := by
  have hne := he.ne
  have hne' : e.start.y - e.stop.y ≠ 0 := sub_ne_zero.mpr (sub_ne_zero.mp hne).symm
  apply Vec2.ext
  · simp only [meet, reverse]
    field_simp
    ring
  · rfl

theorem crosses_reverse (e : Edge ℝ) (p : Vec2 ℝ) : e.reverse.crosses p = e.crosses p := by
  rw [Bool.eq_iff_iff, crosses_iff, crosses_iff, spans_reverse]
  exact and_congr_right fun he => by rw [meet_reverse he]

end Edge

/-! ### Lists taken apart -/

section lists
variable {β : Type} {l : List β} {i j : ℕ}

theorem exists_eq_append_cons (hi : i < l.length) :
    ∃ before x after, l = before ++ x :: after ∧ before.length = i :=
  ⟨l.take i, l[i], l.drop (i + 1), by simp, List.length_take_of_le hi.le⟩

/-- A list taken apart at two places: what is between them, and what is beside them. -/
theorem exists_eq_append_pair (hij : i < j) (hj : j < l.length) :
    ∃ before x between y after, l = before ++ x :: (between ++ y :: after) ∧
      (l.take (j + 1)).drop i = x :: between ++ [y] ∧
      l.drop j ++ l.take (i + 1) = y :: (after ++ before) ++ [x] ∧ before.length = i := by
  obtain ⟨before, x, rest, rfl, rfl⟩ := exists_eq_append_cons (hij.trans hj)
  obtain ⟨k, rfl⟩ := Nat.exists_eq_add_of_lt hij
  obtain ⟨between, y, after, rfl, rfl⟩ : ∃ l z m, rest = l ++ z :: m ∧ l.length = k := by
    refine exists_eq_append_cons ?_
    simp only [List.length_append, List.length_cons] at hj
    omega
  have hlength : before.length + between.length + 1 = before.length + (between.length + 1) :=
    Nat.add_assoc _ _ _
  refine ⟨before, x, between, y, after, rfl, ?_, ?_, rfl⟩
  · rw [hlength, Nat.add_assoc, List.take_length_add_append, List.drop_left, List.take_succ_cons,
      List.take_length_add_append]
    rfl
  · rw [hlength, List.drop_length_add_append, List.drop_succ_cons, List.drop_left,
      List.take_length_add_append]
    simp

end lists

namespace Path

/-! ### The edges of a path that is cut or begun elsewhere -/

section edges
variable {α : Type}

theorem edges_eq_zipWith_rotate (path : Path α) :
    path.edges = List.zipWith Edge.mk path (path.rotate 1) := by
  cases path with
  | nil => rfl
  | cons p rest => rw [List.rotate_cons_succ, List.rotate_zero, edges]

/-- A path begun elsewhere has its edges from there on. -/
theorem edges_rotate (path : Path α) (k : ℕ) : Path.edges (path.rotate k) = path.edges.rotate k := by
  rw [edges_eq_zipWith_rotate, edges_eq_zipWith_rotate, List.rotate_rotate, Nat.add_comm k,
    ← List.rotate_rotate, List.zipWith_rotate_distrib _ _ _ _ (List.length_rotate path 1).symm]

/-- The edges from one corner to another, and those from there back. -/
theorem edges_append (u v : Vec2 α) (l m : Path α) :
    Path.edges (u :: l ++ v :: m) =
      List.zipWith Edge.mk (u :: l) (l ++ [v]) ++ List.zipWith Edge.mk (v :: m) (m ++ [u]) := by
  have hlength : (u :: l).length = (l ++ [v]).length := by simp
  rw [List.cons_append, edges, ← List.cons_append, ← List.zipWith_append hlength]
  simp only [List.append_assoc, List.cons_append, List.nil_append]

/-- Both parts of a path that is cut have its edges, and the chord once each way. -/
theorem countP_edges_cut (test : Edge α → Bool) (u v : Vec2 α) (l m : Path α) :
    (Path.edges (u :: l ++ [v])).countP test + (Path.edges (v :: m ++ [u])).countP test =
      (Path.edges (u :: l ++ v :: m)).countP test +
        ([Edge.mk u v].countP test + [(Edge.mk u v).reverse].countP test) := by
  have hback (p q : Vec2 α) : List.zipWith Edge.mk [p] ([] ++ [q]) = [⟨p, q⟩] := rfl
  simp only [edges_append, hback, List.countP_append, Edge.reverse]
  omega

end edges

variable (path : Path ℝ) (p : Vec2 ℝ)

/-! ### One path -/

theorem contains_rotate (k : ℕ) : Path.contains (path.rotate k) p = path.contains p := by
  rw [contains, contains, edges_rotate, (List.rotate_perm path.edges k).countP_eq]

theorem contains_reverse : Path.contains path.reverse p = path.contains p := by
  have htest : ((·.crosses p) : Edge ℝ → Bool) ∘ Edge.reverse = (·.crosses p) :=
    funext fun e => e.crosses_reverse p
  rw [contains, contains, (edges_reverse_perm path).countP_eq, List.countP_map, htest]

/-- Inside a path is what is inside one of the two parts beside a chord, and not inside both. -/
theorem contains_chord (u v : Vec2 ℝ) (l m : Path ℝ) :
    Path.contains (u :: l ++ v :: m) p =
      (Path.contains (u :: l ++ [v]) p ^^ Path.contains (v :: m ++ [u]) p) := by
  have hcount := countP_edges_cut (·.crosses p) u v l m
  have hchord : [(Edge.mk u v).reverse].countP (·.crosses p) =
      [Edge.mk u v].countP (·.crosses p) := by
    simp only [List.countP_singleton, Edge.crosses_reverse]
  rw [hchord] at hcount
  rw [Bool.eq_iff_iff, Bool.xor_iff_ne.trans (not_congr Bool.eq_iff_iff), contains_iff, contains_iff,
    contains_iff]
  omega

/-- The parts of a path beside the chord between its corners `i` and `j`. -/
theorem contains_cut {path : Path ℝ} {i j : ℕ} (hij : i < j) (hj : j < path.length) :
    path.contains p =
      (Path.contains ((path.take (j + 1)).drop i) p ^^
        Path.contains (path.drop j ++ path.take (i + 1)) p) := by
  obtain ⟨before, u, between, v, after, heq, hout, hback, rfl⟩ := exists_eq_append_pair hij hj
  rw [hout, hback, heq, ← contains_rotate _ p before.length, List.rotate_append_length_eq]
  have hchord := contains_chord p u v between (after ++ before)
  simpa only [List.append_assoc, List.cons_append] using hchord

/-- A corner given twice. -/
theorem contains_repeat (before : Path ℝ) (v : Vec2 ℝ) (after : Path ℝ) :
    Path.contains (before ++ v :: v :: after) p = Path.contains (before ++ v :: after) p := by
  have hedges : Path.edges (v :: v :: (after ++ before)) =
      ⟨v, v⟩ :: Path.edges (v :: (after ++ before)) := rfl
  have hflat : (Edge.mk v v).crosses p = false := by simp [Edge.crosses]
  rw [← contains_rotate (before ++ v :: v :: after) p before.length,
    ← contains_rotate (before ++ v :: after) p before.length, List.rotate_append_length_eq,
    List.rotate_append_length_eq]
  simp only [List.cons_append]
  rw [contains, contains, hedges, List.countP_cons_of_neg (by simp [hflat])]

/-- The first corner given once more at the end. -/
theorem contains_closing (v : Vec2 ℝ) (rest : Path ℝ) :
    Path.contains (v :: rest ++ [v]) p = Path.contains (v :: rest) p := by
  rw [← contains_rotate _ p (v :: rest).length, List.rotate_append_length_eq]
  exact contains_repeat p [] v rest

end Path

/-! ### Several paths -/

theorem boundaryEdges_cons {α : Type} (path : Path α) (paths : List (Path α)) :
    boundaryEdges (path :: paths) = path.edges ++ boundaryEdges paths := List.flatMap_cons

theorem countP_contains_mod_two {α : Type} [Scalar α] (p : Vec2 α) (paths : List (Path α)) :
    paths.countP (fun path => Path.contains path p) % 2 =
      (boundaryEdges paths).countP (·.crosses p) % 2 := by
  induction paths with
  | nil => rfl
  | cons path paths ih =>
      rw [boundaryEdges_cons, List.countP_append, List.countP_cons]
      have hpath : path.edges.countP (·.crosses p) % 2 = if path.contains p then 1 else 0 := by
        simp only [Path.contains, beq_iff_eq]
        split <;> omega
      omega

/-- The same loop, begun at any corner and walked either way. -/
def Path.Retraces {α : Type} (path path' : Path α) : Prop :=
  List.IsRotated path path' ∨ List.IsRotated path (List.reverse path')

theorem Path.Retraces.contains_eq {path path' : Path ℝ} (h : path.Retraces path') (p : Vec2 ℝ) :
    path.contains p = path'.contains p := by
  rcases h with ⟨k, hk⟩ | ⟨k, hk⟩
  · rw [← hk, contains_rotate]
  · rw [← path'.contains_reverse, ← hk, contains_rotate]

/-- The same loops in any order, each begun at any corner and walked either way. -/
def SameLoops {α : Type} (paths paths' : List (Path α)) : Prop :=
  ∃ listed, List.Forall₂ Path.Retraces paths listed ∧ listed.Perm paths'

theorem pathsContain_of_sameLoops {paths paths' : List (Path ℝ)} (h : SameLoops paths paths')
    (p : Vec2 ℝ) : pathsContain paths p = pathsContain paths' p := by
  obtain ⟨listed, hlisted, hperm⟩ := h
  rw [pathsContain, pathsContain, ← hperm.countP_eq]
  clear hperm
  congr 2
  induction hlisted with
  | nil => rfl
  | cons hpath _ ih => rw [List.countP_cons, List.countP_cons, ih, hpath.contains_eq p]

/-- **Even-odd containment adds up over cuts.**  A point, wherever it is, is inside a path if it is inside
exactly one of the two parts that a chord between two corners cuts off.  Inside stays what it is when a
path is begun at another corner, walked backward, or given with a point twice or with an explicit closing
point.  Inside several paths is what an odd number of their edges are crossed for, so that neither the order
of the paths matters nor where they begin and which way they are walked. -/
theorem contains_additive (p : Vec2 ℝ) :
    (∀ (path : Path ℝ) (i j : ℕ), i < j → j < path.length →
      path.contains p = (Path.contains ((path.take (j + 1)).drop i) p ^^
        Path.contains (path.drop j ++ path.take (i + 1)) p)) ∧
    (∀ (path : Path ℝ) (k : ℕ), Path.contains (path.rotate k) p = path.contains p) ∧
    (∀ path : Path ℝ, Path.contains path.reverse p = path.contains p) ∧
    (∀ (before : Path ℝ) (v : Vec2 ℝ) (after : Path ℝ),
      Path.contains (before ++ v :: v :: after) p = Path.contains (before ++ v :: after) p) ∧
    (∀ (v : Vec2 ℝ) (rest : Path ℝ),
      Path.contains (v :: rest ++ [v]) p = Path.contains (v :: rest) p) ∧
    (∀ paths : List (Path ℝ),
      pathsContain paths p = ((boundaryEdges paths).countP (·.crosses p) % 2 == 1)) ∧
    ∀ paths paths' : List (Path ℝ), SameLoops paths paths' →
      pathsContain paths p = pathsContain paths' p := by
  refine ⟨fun path i j => Path.contains_cut p, fun path => Path.contains_rotate path p,
    fun path => Path.contains_reverse path p, Path.contains_repeat p, Path.contains_closing p,
    fun paths => ?_, fun paths paths' h => pathsContain_of_sameLoops h p⟩
  rw [pathsContain, countP_contains_mod_two]

/-- The unit square cut along a diagonal, at a point of the diagonal: only the lower part has it.  And the
square with a hole in it, both walked the other way and begun elsewhere. -/
theorem contains_additive_square :
    let square : Path ℝ := [⟨0, 0⟩, ⟨1, 0⟩, ⟨1, 1⟩, ⟨0, 1⟩]
    let hole : Path ℝ := [⟨1 / 4, 1 / 4⟩, ⟨3 / 4, 1 / 4⟩, ⟨1 / 2, 3 / 4⟩]
    let p : Vec2 ℝ := ⟨1 / 2, 1 / 2⟩
    (0 < 2 ∧ 2 < square.length ∧
      Path.contains [⟨0, 0⟩, ⟨1, 0⟩, ⟨1, 1⟩] p = true ∧
      Path.contains [⟨1, 1⟩, ⟨0, 1⟩, ⟨0, 0⟩] p = false ∧ square.contains p = true) ∧
    SameLoops [square, hole] [[⟨1 / 2, 3 / 4⟩, ⟨3 / 4, 1 / 4⟩, ⟨1 / 4, 1 / 4⟩],
      [⟨1, 1⟩, ⟨0, 1⟩, ⟨0, 0⟩, ⟨1, 0⟩]] ∧
    pathsContain [square, hole] p = pathsContain [[⟨1 / 2, 3 / 4⟩, ⟨3 / 4, 1 / 4⟩, ⟨1 / 4, 1 / 4⟩],
      [⟨1, 1⟩, ⟨0, 1⟩, ⟨0, 0⟩, ⟨1, 0⟩]] p := by
  intro square hole p
  have hlower : Path.contains [⟨0, 0⟩, ⟨1, 0⟩, ⟨1, 1⟩] p = true := by
    norm_num [Path.contains, Path.edges, Edge.crosses, p, List.countP_cons]
  have hupper : Path.contains [⟨1, 1⟩, ⟨0, 1⟩, ⟨0, 0⟩] p = false := by
    norm_num [Path.contains, Path.edges, Edge.crosses, p, List.countP_cons]
  have hcut := (contains_additive p).1 square 0 2 Nat.zero_lt_two (by simp [square])
  have hloops : SameLoops [square, hole] [[⟨1 / 2, 3 / 4⟩, ⟨3 / 4, 1 / 4⟩, ⟨1 / 4, 1 / 4⟩],
      [⟨1, 1⟩, ⟨0, 1⟩, ⟨0, 0⟩, ⟨1, 0⟩]] :=
    ⟨[[⟨1, 1⟩, ⟨0, 1⟩, ⟨0, 0⟩, ⟨1, 0⟩], [⟨1 / 2, 3 / 4⟩, ⟨3 / 4, 1 / 4⟩, ⟨1 / 4, 1 / 4⟩]],
      .cons (Or.inl ⟨2, rfl⟩) (.cons (Or.inr ⟨0, rfl⟩) .nil), .swap _ _ _⟩
  refine ⟨⟨Nat.zero_lt_two, by simp [square], hlower, hupper, ?_⟩, hloops,
    (contains_additive p).2.2.2.2.2.2 _ _ hloops⟩
  change Path.contains _ p = (Path.contains [⟨0, 0⟩, ⟨1, 0⟩, ⟨1, 1⟩] p ^^
    Path.contains [⟨1, 1⟩, ⟨0, 1⟩, ⟨0, 0⟩] p) at hcut
  rw [hcut, hlower, hupper]
  rfl

end TriMesh
