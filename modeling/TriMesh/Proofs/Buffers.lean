import TriMesh.MeshSpec

/-! # Complete buffers

A submesh is *indexed* if its indices come in threes and name vertices, and *complete* if beside that
every vertex has its normal and, on a textured submesh, its texture coordinate.

* Both are kept by `append`, by turning triangles over and by adding triangles below the vertex
  count, so a generator is complete once its pieces are.
* A complete submesh breaks no rule of `validate` (`Complete.validate_eq_ok`).
* Turning the triangles of an indexed submesh over flips each of them (`triangles_reverseWinding`). -/

namespace TriMesh

theorem length_flatMap_of_length {β γ : Type} {f : β → List γ} {width : Nat} : ∀ {l : List β},
    (∀ x ∈ l, (f x).length = width) → (l.flatMap f).length = width * l.length
  | [], _ => by simp
  | x :: l, h => by
      obtain ⟨hx, hl⟩ := List.forall_mem_cons.mp h
      rw [List.flatMap_cons, List.length_append, hx, length_flatMap_of_length hl, List.length_cons,
        Nat.mul_succ, Nat.add_comm]

/-! ### Flat index lists -/

namespace Triangle

/-- All three corners are among the first `n` vertices. -/
def Below (t : Triangle) (n : Nat) : Prop := t.a < n ∧ t.b < n ∧ t.c < n

theorem Below.flip {t : Triangle} {n : Nat} (h : t.Below n) : t.flip.Below n := ⟨h.1, h.2.2, h.2.1⟩

theorem Below.shift {t : Triangle} {n : Nat} (h : t.Below n) (k : Nat) :
    (t.shift k).Below (k + n) := by
  obtain ⟨ha, hb, hc⟩ := h
  simp only [Below, Triangle.shift]
  omega

theorem forall_mem_flatten_lt {ts : List Triangle} {n : Nat} (h : ∀ t ∈ ts, t.Below n) :
    ∀ i ∈ flatten ts, i < n := by
  intro i hi
  obtain ⟨t, ht, hit⟩ := List.mem_flatMap.mp hi
  obtain ⟨ha, hb, hc⟩ := h t ht
  simp only [toList, List.mem_cons, List.not_mem_nil, or_false] at hit
  omega

/-- Whole flat lists are the lists of their triangles. -/
theorem flatten_ofIndices : ∀ {l : List Nat}, l.length % 3 = 0 → flatten (ofIndices l) = l
  | [], _ => rfl
  | [_], h => by simp at h
  | [_, _], h => by simp at h
  | a :: b :: c :: rest, h => by
      have hr : rest.length % 3 = 0 := by
        simp only [List.length_cons] at h
        omega
      simp [ofIndices, flatten_ofIndices hr]

/-- Behind a whole list the grouping into triangles starts again. -/
theorem ofIndices_append {l : List Nat} (h : l.length % 3 = 0) (m : List Nat) :
    ofIndices (l ++ m) = ofIndices l ++ ofIndices m := by
  rw [← flatten_ofIndices h]
  generalize ofIndices l = ts
  rw [ofIndices_flatten]
  induction ts with
  | nil => rfl
  | cons t ts ih => simp [ofIndices, ih]

theorem ofIndices_map_add (k : Nat) : ∀ l : List Nat,
    ofIndices (l.map (· + k)) = (ofIndices l).map (·.shift k)
  | [] => rfl
  | [_] => rfl
  | [_, _] => rfl
  | a :: b :: c :: rest => by simp [ofIndices, ofIndices_map_add k rest, shift]

theorem reverseWinding_flatten (ts : List Triangle) :
    reverseWinding (flatten ts) = flatten (ts.map flip) := by
  induction ts with
  | nil => rfl
  | cons t ts ih => simp [reverseWinding, flip, ih]

theorem below_of_mem_ofIndices {n : Nat} : ∀ {l : List Nat}, (∀ i ∈ l, i < n) →
    ∀ t ∈ ofIndices l, t.Below n
  | [], _, t, ht => by simp [ofIndices] at ht
  | [_], _, t, ht => by simp [ofIndices] at ht
  | [_, _], _, t, ht => by simp [ofIndices] at ht
  | a :: b :: c :: rest, h, t, ht => by
      simp only [List.mem_cons, forall_eq_or_imp] at h
      rcases List.mem_cons.mp ht with rfl | ht
      · exact ⟨h.1, h.2.1, h.2.2.1⟩
      · exact below_of_mem_ofIndices h.2.2.2 t ht

end Triangle

/-! ### Indexed and complete submeshes -/

namespace SubMesh

variable {α : Type}

/-- Indices come in threes, and each of them names a vertex. -/
structure Indexed (s : SubMesh α) : Prop where
  /-- There is no incomplete triangle. -/
  whole : s.indexCount % 3 = 0
  /-- No index dangles. -/
  inRange : ∀ i ∈ s.indices, i < s.vertexCount

/-- An indexed submesh with one normal for each vertex and, exactly if it is textured, one texture
coordinate for each vertex. -/
structure Complete (s : SubMesh α) (textured : Bool) : Prop extends Indexed s where
  /-- One normal for each vertex. -/
  normals : s.normalCount = s.vertexCount
  /-- One texture coordinate for each vertex, or none. -/
  texcoords : s.texcoordCount = if textured then s.vertexCount else 0

/-- Without an index that dangles only the buffers are left to be at fault. -/
theorem Indexed.fault?_eq {s : SubMesh α} (h : s.Indexed) :
    s.fault? =
      if s.normalCount ≠ 0 ∧ s.normalCount ≠ s.vertexCount then
        some (.invalidMesh (.normalCount s.normalCount s.vertexCount))
      else if s.texcoordCount ≠ 0 ∧ s.texcoordCount ≠ s.vertexCount then
        some (.invalidMesh (.texcoordCount s.texcoordCount s.vertexCount))
      else none := by
  have hdangling : s.firstDanglingIndex? = none := by
    refine List.find?_eq_none.mpr fun i hi => ?_
    have hin := h.inRange i (Array.mem_toList_iff.mp hi)
    simp only [decide_eq_true_eq]
    omega
  unfold fault?
  rw [if_neg (absurd h.whole), hdangling]

theorem Complete.validate_eq_ok {s : SubMesh α} {textured : Bool} (h : s.Complete textured) :
    s.validate = .ok () := by
  have ht : s.texcoordCount = 0 ∨ s.texcoordCount = s.vertexCount := by
    rw [h.texcoords]
    cases textured <;> simp
  have hfault : s.fault? = none := by
    rw [h.toIndexed.fault?_eq, if_neg (by simp [h.normals]), if_neg (by omega)]
  unfold validate
  rw [hfault]

theorem vertexCount_append (s t : SubMesh α) :
    (s ++ t).vertexCount = s.vertexCount + t.vertexCount := Array.size_append

theorem indices_append (s t : SubMesh α) :
    (s ++ t).indices = s.indices ++ t.indices.map (· + s.vertexCount) := rfl

theorem Indexed.append {s t : SubMesh α} (hs : s.Indexed) (ht : t.Indexed) : (s ++ t).Indexed := by
  refine ⟨?_, ?_⟩
  · have h1 := hs.whole
    have h2 := ht.whole
    simp only [indexCount, indices_append, Array.size_append, Array.size_map] at h1 h2 ⊢
    omega
  · intro i hi
    rw [vertexCount_append]
    rw [indices_append, Array.mem_append, Array.mem_map] at hi
    rcases hi with hi | ⟨j, hj, rfl⟩
    · have := hs.inRange i hi
      omega
    · have := ht.inRange j hj
      omega

/-- What is put behind a complete submesh keeps it complete, if both or neither are textured. -/
theorem Complete.append {s t : SubMesh α} {textured : Bool} (hs : s.Complete textured)
    (ht : t.Complete textured) : (s ++ t).Complete textured := by
  refine ⟨hs.toIndexed.append ht.toIndexed, ?_, ?_⟩
  · have h : (s ++ t).normalCount = s.normalCount + t.normalCount := Array.size_append
    rw [h, vertexCount_append, hs.normals, ht.normals]
  · have h : (s ++ t).texcoordCount = s.texcoordCount + t.texcoordCount := Array.size_append
    rw [h, vertexCount_append, hs.texcoords, ht.texcoords]
    cases textured <;> simp

theorem Complete.foldl_append {textured : Bool} {pieces : List (SubMesh α)} :
    ∀ {s : SubMesh α}, s.Complete textured → (∀ p ∈ pieces, p.Complete textured) →
      (pieces.foldl (· ++ ·) s).Complete textured := by
  induction pieces with
  | nil => exact fun hs _ => hs
  | cons p pieces ih =>
      intro s hs h
      rw [List.foldl_cons]
      exact ih (hs.append (h p List.mem_cons_self)) fun q hq => h q (List.mem_cons_of_mem p hq)

/-- Triangles listed one after the other are whole, and in range if every corner is. -/
theorem indexed_of_flatten {s : SubMesh α} {ts : List Triangle}
    (hi : s.indices.toList = Triangle.flatten ts) (h : ∀ t ∈ ts, t.Below s.vertexCount) :
    s.Indexed := by
  refine ⟨?_, ?_⟩
  · have hl : s.indexCount = 3 * ts.length := by
      rw [← Triangle.length_flatten, ← hi]
      rfl
    omega
  · intro i hmem
    refine Triangle.forall_mem_flatten_lt h i ?_
    rw [← hi]
    simpa using hmem

theorem triangles_of_flatten {s : SubMesh α} {ts : List Triangle}
    (hi : s.indices.toList = Triangle.flatten ts) : s.triangles = ts := by
  unfold triangles
  rw [hi, Triangle.ofIndices_flatten]

theorem Indexed.flatten_triangles {s : SubMesh α} (h : s.Indexed) :
    Triangle.flatten s.triangles = s.indices.toList :=
  Triangle.flatten_ofIndices h.whole

theorem Indexed.below {s : SubMesh α} (h : s.Indexed) : ∀ t ∈ s.triangles, t.Below s.vertexCount :=
  Triangle.below_of_mem_ofIndices fun i hi => h.inRange i (by simpa using hi)

/-- The triangles of the first submesh come first, then those of the second, moved up. -/
theorem Indexed.triangles_append {s : SubMesh α} (hs : s.Indexed) (t : SubMesh α) :
    (s ++ t).triangles = s.triangles ++ t.triangles.map (·.shift s.vertexCount) := by
  have hw : s.indices.toList.length % 3 = 0 := hs.whole
  unfold triangles
  rw [indices_append, Array.toList_append, Array.toList_map, Triangle.ofIndices_append hw,
    Triangle.ofIndices_map_add]

/-- Turning all triangles of an indexed submesh over flips each of them. -/
theorem Indexed.indices_reverseWinding {s : SubMesh α} (h : s.Indexed) :
    (s.reverseWindingFrom 0).indices.toList = Triangle.flatten (s.triangles.map Triangle.flip) := by
  rw [← Triangle.reverseWinding_flatten, h.flatten_triangles]
  simp [reverseWindingFrom]

theorem Indexed.triangles_reverseWinding {s : SubMesh α} (h : s.Indexed) :
    (s.reverseWindingFrom 0).triangles = s.triangles.map Triangle.flip :=
  triangles_of_flatten h.indices_reverseWinding

theorem Complete.reverseWinding {s : SubMesh α} {textured : Bool} (h : s.Complete textured) :
    (s.reverseWindingFrom 0).Complete textured := by
  refine ⟨indexed_of_flatten h.indices_reverseWinding ?_, h.normals, h.texcoords⟩
  intro t ht
  obtain ⟨u, hu, rfl⟩ := List.mem_map.mp ht
  exact (h.below u hu).flip

theorem Indexed.addTriangles {s : SubMesh α} (hs : s.Indexed) {ts : List Triangle}
    (h : ∀ t ∈ ts, t.Below s.vertexCount) : (s.addTriangles ts).Indexed := by
  have hi : (s.addTriangles ts).indices.toList = Triangle.flatten (s.triangles ++ ts) := by
    rw [Triangle.flatten_append, hs.flatten_triangles]
    simp [SubMesh.addTriangles]
  refine indexed_of_flatten hi ?_
  intro t ht
  rcases List.mem_append.mp ht with ht | ht
  · exact hs.below t ht
  · exact h t ht

theorem Complete.addTriangles {s : SubMesh α} {textured : Bool} (hs : s.Complete textured)
    {ts : List Triangle} (h : ∀ t ∈ ts, t.Below s.vertexCount) :
    (s.addTriangles ts).Complete textured :=
  ⟨hs.toIndexed.addTriangles h, hs.normals, hs.texcoords⟩

theorem below_orient [Scalar α] (s : SubMesh α) {t : Triangle} {n : Nat} (h : t.Below n)
    (facing : Vec3 α) : (s.orient t facing).Below n := by
  unfold orient
  cases s.corners? t with
  | none => exact h
  | some corners =>
      dsimp only
      split
      · exact h
      · exact h.flip

/-! ### Normals from faces -/

/-- A fold whose steps keep the size of an array keeps it. -/
theorem size_foldl_of_step {β : Type} {step : Array α → β → Array α}
    (h : ∀ xs b, (step xs b).size = xs.size) (bs : List β) :
    ∀ xs : Array α, (bs.foldl step xs).size = xs.size := by
  induction bs with
  | nil => exact fun _ => rfl
  | cons b bs ih =>
      intro xs
      rw [List.foldl_cons, ih, h]

/-- Every vertex has its sum of faces, whatever the triangles are. -/
theorem size_faceSums [Scalar α] (s : SubMesh α) : s.faceSums.size = s.vertexCount := by
  unfold faceSums
  rw [size_foldl_of_step]
  · exact Array.size_replicate
  · intro sums t
    cases s.corners? t with
    | none => rfl
    | some corners => simp [accumulate, Triangle.toList]

theorem Complete.recalculateNormals [Scalar α] {s : SubMesh α} {textured : Bool}
    (h : s.Complete textured) : s.recalculateNormals.Complete textured := by
  refine ⟨⟨h.whole, h.inRange⟩, ?_, h.texcoords⟩
  simp only [normalCount, SubMesh.recalculateNormals, Array.size_map, size_faceSums]
  rfl

theorem Complete.flattenCornerNormals [Scalar α] {s : SubMesh α} {textured : Bool}
    (h : s.Complete textured) : s.flattenCornerNormals.Complete textured := by
  refine ⟨⟨h.whole, h.inRange⟩, Eq.trans ?_ h.normals, h.texcoords⟩
  refine size_foldl_of_step (fun normals t => ?_) s.triangles s.normals
  unfold flattenCorner
  split
  · simp [Triangle.toList]
  · rfl

end SubMesh

end TriMesh
