import TriMesh.Proofs.FaceNormals
import TriMesh.Proofs.GridTilings

/-! # Reversed windings

What `reverseWindingFrom` does to the index list, from any position onward.

* Behind the position the indices are grouped by threes, and the last two of each group are exchanged; what is
  left over stays (`Triangle.reverseWinding`).  So no index is lost, and doing it twice does nothing
  (`Triangle.reverseWinding_perm`, `Triangle.reverseWinding_reverseWinding`).
* From a boundary between triangles onward the groups are the triangles: those before the boundary stay, and
  those behind it are flipped (`SubMesh.getElem?_triangles_reverseWindingFrom`).
* A piece may be reversed before it is put behind a submesh, or afterwards from there onward
  (`SubMesh.append_reverseWindingFrom`). -/

namespace TriMesh

/-! ### Flat index lists -/

namespace Triangle

theorem reverseWinding_perm : ∀ l : List ℕ, (reverseWinding l).Perm l
  | [] => .refl _
  | [_] => .refl _
  | [_, _] => .refl _
  | a :: b :: c :: rest => by
      have hrest : (a :: c :: b :: reverseWinding rest).Perm (a :: c :: b :: rest) :=
        (((reverseWinding_perm rest).cons b).cons c).cons a
      exact hrest.trans ((List.Perm.swap b c rest).cons a)

theorem reverseWinding_reverseWinding : ∀ l : List ℕ, reverseWinding (reverseWinding l) = l
  | [] => rfl
  | [_] => rfl
  | [_, _] => rfl
  | a :: b :: c :: rest => congrArg (a :: b :: c :: ·) (reverseWinding_reverseWinding rest)

/-- The indices behind the last complete triangle stay in place. -/
theorem getElem?_reverseWinding_of_le : ∀ {l : List ℕ} {i : ℕ}, 3 * (l.length / 3) ≤ i →
    (reverseWinding l)[i]? = l[i]?
  | [], _, _ => rfl
  | [_], _, _ => rfl
  | [_, _], _, _ => rfl
  | a :: b :: c :: rest, i, h => by
      rw [List.length_cons, List.length_cons, List.length_cons] at h
      obtain ⟨j, rfl⟩ : ∃ j, i = j + 3 := ⟨i - 3, by omega⟩
      exact getElem?_reverseWinding_of_le (l := rest) (by omega)

theorem reverseWinding_map (f : ℕ → ℕ) : ∀ l : List ℕ, reverseWinding (l.map f) = (reverseWinding l).map f
  | [] => rfl
  | [_] => rfl
  | [_, _] => rfl
  | a :: b :: c :: rest => congrArg (f a :: f c :: f b :: ·) (reverseWinding_map f rest)

/-- Behind `m` triangles the groups are triangles again. -/
theorem getElem?_ofIndices_reverseWinding_drop : ∀ (m k : ℕ) (l : List ℕ),
    (ofIndices (l.take (3 * m) ++ reverseWinding (l.drop (3 * m))))[k]? =
      if m ≤ k then (ofIndices l)[k]?.map flip else (ofIndices l)[k]?
  | 0, k, l => by
      rw [if_pos k.zero_le, ← List.getElem?_map, ← ofIndices_reverseWinding]
      rfl
  | m + 1, k, [] => by simp [ofIndices, reverseWinding]
  | m + 1, k, [_] => by simp [ofIndices, reverseWinding, Nat.mul_succ]
  | m + 1, k, [_, _] => by simp [ofIndices, reverseWinding, Nat.mul_succ]
  | m + 1, 0, a :: b :: c :: rest => rfl
  | m + 1, k + 1, a :: b :: c :: rest => by
      have ih := getElem?_ofIndices_reverseWinding_drop m k rest
      simp only [Nat.add_le_add_iff_right]
      exact ih

end Triangle

/-! ### Submeshes -/

namespace SubMesh

variable {α : Type} (s : SubMesh α) (first : ℕ)

theorem toList_indices_reverseWindingFrom :
    (s.reverseWindingFrom first).indices.toList =
      s.indices.toList.take first ++ Triangle.reverseWinding (s.indices.toList.drop first) := by
  have htail : (s.indices.extract first s.indices.size).toList = s.indices.toList.drop first := by
    rw [Array.toList_extract, List.extract_eq_take_drop]
    exact List.take_of_length_le (by rw [List.length_drop, Array.length_toList])
  have hhead : (s.indices.extract 0 first).toList = s.indices.toList.take first := by
    rw [Array.toList_extract, List.extract_eq_take_drop, List.drop_zero, Nat.sub_zero]
  unfold reverseWindingFrom
  rw [Array.toList_appendList, hhead, htail]

theorem indices_reverseWindingFrom_perm : (s.reverseWindingFrom first).indices.toList.Perm s.indices.toList := by
  rw [toList_indices_reverseWindingFrom]
  conv_rhs => rw [← s.indices.toList.take_append_drop first]
  exact (Triangle.reverseWinding_perm _).append_left _

theorem indexCount_reverseWindingFrom : (s.reverseWindingFrom first).indexCount = s.indexCount :=
  (s.indices_reverseWindingFrom_perm first).length_eq

/-- No index before the position moves, and none behind the last complete group. -/
theorem getElem?_indices_reverseWindingFrom {i : ℕ}
    (h : i < first ∨ first + 3 * ((s.indexCount - first) / 3) ≤ i) :
    (s.reverseWindingFrom first).indices[i]? = s.indices[i]? := by
  have hsplit := s.indices.toList.take_append_drop first
  rw [← Array.getElem?_toList, ← Array.getElem?_toList, toList_indices_reverseWindingFrom]
  conv_rhs => rw [← hsplit]
  have hhead : (s.indices.toList.take first).length = min first s.indexCount := List.length_take
  have htail : (s.indices.toList.drop first).length = s.indexCount - first := List.length_drop
  rcases Nat.lt_or_ge i (s.indices.toList.take first).length with hlt | hge
  · rw [List.getElem?_append_left hlt, List.getElem?_append_left hlt]
  · rw [List.getElem?_append_right hge, List.getElem?_append_right hge]
    refine Triangle.getElem?_reverseWinding_of_le ?_
    rw [htail]
    omega

theorem reverseWindingFrom_reverseWindingFrom : (s.reverseWindingFrom first).reverseWindingFrom first = s := by
  have hindices : ((s.reverseWindingFrom first).reverseWindingFrom first).indices = s.indices := by
    apply Array.toList_inj.mp
    rw [toList_indices_reverseWindingFrom, toList_indices_reverseWindingFrom]
    rcases Nat.le_total first s.indexCount with hle | hge
    · have hlength : (s.indices.toList.take first).length = first := List.length_take_of_le hle
      rw [List.take_left' hlength, List.drop_left' hlength, Triangle.reverseWinding_reverseWinding,
        List.take_append_drop]
    · -- past the end there is nothing to reverse
      have hdrop : s.indices.toList.drop first = [] := List.drop_eq_nil_of_le hge
      have htake : s.indices.toList.take first = s.indices.toList := List.take_of_length_le hge
      have hnil : Triangle.reverseWinding [] = [] := rfl
      simp only [hdrop, htake, hnil, List.append_nil]
  exact congrArg (fun is => { s with indices := is }) hindices

/-! ### Whole triangles -/

/-- From behind the first `m` triangles onward every triangle is flipped, and no other. -/
theorem getElem?_triangles_reverseWindingFrom (m k : ℕ) :
    (s.reverseWindingFrom (3 * m)).triangles[k]? =
      if m ≤ k then s.triangles[k]?.map Triangle.flip else s.triangles[k]? := by
  unfold triangles
  rw [toList_indices_reverseWindingFrom]
  exact Triangle.getElem?_ofIndices_reverseWinding_drop m k s.indices.toList

/-- From one boundary and then from a later one onward: the triangles between them are flipped. -/
theorem getElem?_triangles_between {m n : ℕ} (h : m ≤ n) (k : ℕ) :
    ((s.reverseWindingFrom (3 * m)).reverseWindingFrom (3 * n)).triangles[k]? =
      if m ≤ k ∧ k < n then s.triangles[k]?.map Triangle.flip else s.triangles[k]? := by
  rw [getElem?_triangles_reverseWindingFrom, getElem?_triangles_reverseWindingFrom]
  rcases Nat.lt_or_ge k m with hkm | hmk
  · rw [if_neg (by omega), if_neg (by omega), if_neg (by omega)]
  rcases Nat.lt_or_ge k n with hkn | hnk
  · rw [if_neg (by omega), if_pos hmk, if_pos ⟨hmk, hkn⟩]
  · have hflip : Triangle.flip ∘ Triangle.flip = id := rfl
    rw [if_pos hnk, if_pos hmk, if_neg (by omega), Option.map_map, hflip, Option.map_id_apply]

variable {s} in
/-- Triangles behind whole ones are flipped by reversing from there onward. -/
theorem indices_reverseWindingFrom_of_eq {t : SubMesh α} {ts : List Triangle}
    (h : t.indices.toList = s.indices.toList ++ Triangle.flatten ts) :
    (t.reverseWindingFrom s.indexCount).indices.toList =
      s.indices.toList ++ Triangle.flatten (ts.map Triangle.flip) := by
  have hlength : s.indices.toList.length = s.indexCount := rfl
  rw [toList_indices_reverseWindingFrom, h, List.take_left' hlength, List.drop_left' hlength,
    Triangle.reverseWinding_flatten]

/-- A piece reversed before it is put behind a submesh, or afterwards. -/
theorem append_reverseWindingFrom (t : SubMesh α) :
    (s ++ t).reverseWindingFrom (s.indexCount + first) = s ++ t.reverseWindingFrom first := by
  have hindices : ((s ++ t).reverseWindingFrom (s.indexCount + first)).indices =
      (s ++ t.reverseWindingFrom first).indices := by
    apply Array.toList_inj.mp
    have hlength : s.indices.toList.length = s.indexCount := rfl
    rw [toList_indices_reverseWindingFrom, indices_append, indices_append, Array.toList_append, Array.toList_append,
      Array.toList_map, Array.toList_map, toList_indices_reverseWindingFrom, ← hlength, List.take_length_add_append,
      List.drop_length_add_append, ← List.map_take, ← List.map_drop, Triangle.reverseWinding_map, List.map_append,
      List.append_assoc]
  exact congrArg (fun is => { s ++ t with indices := is }) hindices

/-- **Reversing turns over the triangles behind a position, and does nothing else.**  From any position onward, no
vertex, normal or texture coordinate changes, no index before the position and none behind the last complete
group; the indices are the same ones, and doing it again takes it back.  From the end of whole triangles onward
exactly the triangles put behind them are flipped, each with all of its directed edges, and a piece put behind a
submesh might as well be reversed before.  From one boundary between triangles and then from a later one onward,
exactly those between the two are flipped. -/
theorem reverseWindingFrom_flips (s : SubMesh α) :
    (∀ first : ℕ,
      let r := s.reverseWindingFrom first
      (r.vertices = s.vertices ∧ r.normals = s.normals ∧ r.texcoords = s.texcoords) ∧
        (∀ i, i < first ∨ first + 3 * ((s.indexCount - first) / 3) ≤ i → r.indices[i]? = s.indices[i]?) ∧
        r.indices.toList.Perm s.indices.toList ∧ r.indexCount = s.indexCount ∧
        r.reverseWindingFrom first = s) ∧
      (∀ (t : SubMesh α) (ts : List Triangle), s.indexCount % 3 = 0 →
        t.indices.toList = s.indices.toList ++ Triangle.flatten ts →
          t.triangles = s.triangles ++ ts ∧
            (t.reverseWindingFrom s.indexCount).triangles = s.triangles ++ ts.map Triangle.flip ∧
            ∀ u ∈ ts, u.flip = ⟨u.a, u.c, u.b⟩ ∧ u.flip.facet.edges.Perm (u.facet.edges.map Prod.swap)) ∧
      (∀ (p : SubMesh α) (first : ℕ),
        (s ++ p).reverseWindingFrom (s.indexCount + first) = s ++ p.reverseWindingFrom first) ∧
      ∀ m n : ℕ, m ≤ n → ∀ k : ℕ,
        ((s.reverseWindingFrom (3 * m)).reverseWindingFrom (3 * n)).triangles[k]? =
          if m ≤ k ∧ k < n then s.triangles[k]?.map Triangle.flip else s.triangles[k]? := by
  refine ⟨fun first => ⟨⟨rfl, rfl, rfl⟩, fun i => s.getElem?_indices_reverseWindingFrom first,
    s.indices_reverseWindingFrom_perm first, s.indexCount_reverseWindingFrom first,
    s.reverseWindingFrom_reverseWindingFrom first⟩, fun t ts hwhole ht => ?_,
    fun p first => s.append_reverseWindingFrom first p, fun m n => s.getElem?_triangles_between⟩
  have happend (us : List Triangle) :
      Triangle.ofIndices (s.indices.toList ++ Triangle.flatten us) = s.triangles ++ us := by
    rw [Triangle.ofIndices_append hwhole, Triangle.ofIndices_flatten]
    rfl
  refine ⟨?_, ?_, fun u _ => ⟨rfl, u.facet.edges_flip_perm⟩⟩
  · rw [triangles, ht, happend]
  · rw [triangles, indices_reverseWindingFrom_of_eq ht, happend]

/-- A strip of two triangles and an incomplete one: the second alone is turned over, then the first alone. -/
theorem reverseWindingFrom_flips_strip :
    let s : SubMesh Float := { indices := #[0, 1, 2] }
    let t : SubMesh Float := { indices := #[0, 1, 2, 2, 1, 3] }
    let u : SubMesh Float := { indices := #[0, 1, 2, 2, 1, 3, 4, 5] }
    (s.indexCount % 3 = 0 ∧ t.indices.toList = s.indices.toList ++ Triangle.flatten [⟨2, 1, 3⟩]) ∧
      (t.reverseWindingFrom s.indexCount).triangles = [⟨0, 1, 2⟩, ⟨2, 3, 1⟩] ∧
      (u.reverseWindingFrom 4).indices[7]? = some 5 ∧
      ((u.reverseWindingFrom 0).reverseWindingFrom 3).triangles[0]? = some ⟨0, 2, 1⟩ ∧
      ((u.reverseWindingFrom 0).reverseWindingFrom 3).triangles[1]? = some ⟨2, 1, 3⟩ := by
  intro s t u
  obtain ⟨-, happended, -, -⟩ := reverseWindingFrom_flips s
  obtain ⟨hfrom, -, -, hbetween⟩ := reverseWindingFrom_flips u
  have hwhole : s.indexCount % 3 = 0 := Nat.mod_self 3
  refine ⟨⟨hwhole, rfl⟩, (happended t [⟨2, 1, 3⟩] hwhole rfl).2.1, ?_, ?_, ?_⟩
  · exact (hfrom 4).2.1 7 (Or.inr (by decide))
  · exact hbetween 0 1 (Nat.zero_le 1) 0
  · exact hbetween 0 1 (Nat.zero_le 1) 1

end SubMesh

end TriMesh
