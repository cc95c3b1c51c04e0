import Mathlib.Data.Prod.Lex
import Mathlib.Order.Compare
import TriMesh.Proofs.Reals

/-! # The order of scalars

What comparing scalars has in common for doubles and exact numbers.

* A scalar is a *number* if it is at most itself.  On the numbers `≤` is total and transitive, `<` is its
  strict part, and two scalars are equal if each is at most the other, as the two zeros of the doubles are
  (`Scalar.Ordered`).
* The doubles but the undefined one stand in a line, by sign and size class first, then by exponent and
  mantissa, and are compared by their places in it (`Scalar.compare_unpacked`), so they are the numbers among
  the doubles (`Scalar.le_self_iff`).
* `Scalar.min` and `Scalar.max` of two numbers are one of them, and a bound of both. -/

namespace TriMesh.Scalar

/-- Scalars that are at most themselves are totally ordered, but for equal ones. -/
class Ordered (α : Type) [Scalar α] : Prop where
  /-- What is at most another scalar, or at least one, is a number. -/
  le_self_of_le {a b : α} : a ≤ b → a ≤ a ∧ b ≤ b
  /-- The order is transitive. -/
  trans {a b c : α} : a ≤ b → b ≤ c → a ≤ c
  /-- Numbers can be compared. -/
  total {a b : α} : a ≤ a → b ≤ b → a ≤ b ∨ b ≤ a
  /-- Less is what is not at least. -/
  lt_iff {a b : α} : a ≤ a → b ≤ b → (a < b ↔ ¬b ≤ a)
  /-- Equal is what is at most and at least. -/
  beq_iff {a b : α} : (a == b) = true ↔ a ≤ b ∧ b ≤ a

instance : Ordered ℝ where
  le_self_of_le _ := ⟨le_refl _, le_refl _⟩
  trans := le_trans
  total _ _ := le_total _ _
  lt_iff _ _ := not_le.symm
  beq_iff := decide_eq_true_iff.trans le_antisymm_iff

/-! ### Doubles -/

section doubles

open Float.Model (UnpackedFloat)

/-- The place of a double among all: its class, its exponent and its mantissa, turned round below zero. -/
def place : UnpackedFloat → ℤ ×ₗ ℤ ×ₗ ℤ
  | .infinity .negative => toLex (-2, toLex (0, 0))
  | .finite .negative m e _ => toLex (-1, toLex (-e, -m))
  | .notANumber => toLex (0, toLex (0, 0))
  | .zero _ => toLex (0, toLex (0, 0))
  | .finite .positive m e _ => toLex (1, toLex (e, m))
  | .infinity .positive => toLex (2, toLex (0, 0))

theorem compare_toLex {β γ : Type} [LinearOrder β] [LinearOrder γ] (a b : β) (x y : γ) :
    compare (toLex (a, x)) (toLex (b, y)) = (compare a b).then (compare x y) := by
  simp only [Prod.Lex.compare_def, compareLex, compareOn, ofLex_toLex]

theorem compare_neg_neg (a b : ℤ) : compare (-a) (-b) = (compare a b).swap := by
  have hanti : StrictAnti fun c : ℤ => -c := fun _ _ h => neg_lt_neg h
  rw [← cmp_eq_compare, ← cmp_eq_compare, cmp_swap, hanti.cmp_map_eq]

theorem compare_natCast (m n : ℕ) : compare (m : ℤ) (n : ℤ) = compare m n := by
  rw [← cmp_eq_compare, ← cmp_eq_compare, Nat.strictMono_cast.cmp_map_eq]

/-- Doubles that are defined are compared by their places. -/
theorem compare_unpacked {a b : UnpackedFloat} (ha : a.isNaN = false) (hb : b.isNaN = false) :
    a.compare b = some (compare (place a) (place b)) := by
  rcases a with ⟨⟨⟩⟩ | _ | s | ⟨⟨⟩, m, e, hm⟩
  case notANumber => cases ha
  all_goals
    rcases b with ⟨⟨⟩⟩ | _ | t | ⟨⟨⟩, n, k, hn⟩
    case notANumber => cases hb
    -- doubles of one class and sign are left to their exponents and mantissas, the others to their classes
    all_goals
      refine congrArg some ?_
      change _ = compare (toLex (_, toLex (_, _))) (toLex (_, toLex (_, _)))
      simp only [compare_toLex, compare_neg_neg, compare_natCast, Ordering.swap_then]
      rfl

theorem compare_eq_some_iff {a b : UnpackedFloat} {o : Ordering} :
    a.compare b = some o ↔ a.isNaN = false ∧ b.isNaN = false ∧ compare (place a) (place b) = o := by
  constructor
  · intro h
    have ha : a.isNaN = false := by
      cases a with
      | notANumber => cases h
      | _ => rfl
    have hb : b.isNaN = false := by
      cases b with
      | notANumber => cases a <;> cases h
      | _ => rfl
    rw [compare_unpacked ha hb] at h
    exact ⟨ha, hb, Option.some.inj h⟩
  · rintro ⟨ha, hb, rfl⟩
    exact compare_unpacked ha hb

variable {x y : Float}

/-- The place of a double in its packed form. -/
def placeOf (x : Float) : ℤ ×ₗ ℤ ×ₗ ℤ := place x.toModel.unpack

theorem lt_iff_placeOf : x < y ↔ x.isNaN = false ∧ y.isNaN = false ∧ placeOf x < placeOf y :=
  calc x < y ↔ x.toModel.unpack.compare y.toModel.unpack = some .lt := decide_eq_true_iff.trans beq_iff_eq
    _ ↔ x.isNaN = false ∧ y.isNaN = false ∧ placeOf x < placeOf y := by
      rw [compare_eq_some_iff, compare_lt_iff_lt]
      rfl

theorem le_iff_placeOf : x ≤ y ↔ x.isNaN = false ∧ y.isNaN = false ∧ placeOf x ≤ placeOf y :=
  calc x ≤ y ↔ ∃ o, x.toModel.unpack.compare y.toModel.unpack = some o ∧ o.isLE = true :=
        decide_eq_true_iff.trans (Option.any_eq_true _ _)
    _ ↔ x.isNaN = false ∧ y.isNaN = false ∧ placeOf x ≤ placeOf y := by
      simp only [compare_eq_some_iff, Ordering.isLE_iff_ne_gt]
      constructor
      · rintro ⟨o, ⟨hx, hy, rfl⟩, h⟩
        exact ⟨hx, hy, compare_le_iff_le.mp h⟩
      · rintro ⟨hx, hy, h⟩
        exact ⟨_, ⟨hx, hy, rfl⟩, compare_le_iff_le.mpr h⟩

theorem beq_iff_placeOf : (x == y) = true ↔ x.isNaN = false ∧ y.isNaN = false ∧ placeOf x = placeOf y :=
  calc (x == y) = true ↔ (x.toModel.unpack.compare y.toModel.unpack == some .eq) = true := Iff.rfl
    _ ↔ x.toModel.unpack.compare y.toModel.unpack = some .eq := beq_iff_eq
    _ ↔ x.isNaN = false ∧ y.isNaN = false ∧ placeOf x = placeOf y := by
      rw [compare_eq_some_iff, compare_eq_iff_eq]
      rfl

/-- The numbers among the doubles are those that are defined. -/
theorem le_self_iff : x ≤ x ↔ x.isNaN = false := by
  rw [le_iff_placeOf]
  exact ⟨fun h => h.1, fun h => ⟨h, h, le_rfl⟩⟩

instance : Ordered Float where
  le_self_of_le h := by
    obtain ⟨hx, hy, -⟩ := le_iff_placeOf.mp h
    exact ⟨le_self_iff.mpr hx, le_self_iff.mpr hy⟩
  trans h h' := by
    obtain ⟨hx, -, hxy⟩ := le_iff_placeOf.mp h
    obtain ⟨-, hz, hyz⟩ := le_iff_placeOf.mp h'
    exact le_iff_placeOf.mpr ⟨hx, hz, hxy.trans hyz⟩
  total hx hy := by
    have hx := le_self_iff.mp hx
    have hy := le_self_iff.mp hy
    exact (le_total _ _).imp (fun h => le_iff_placeOf.mpr ⟨hx, hy, h⟩) fun h => le_iff_placeOf.mpr ⟨hy, hx, h⟩
  lt_iff hx hy := by
    have hx := le_self_iff.mp hx
    have hy := le_self_iff.mp hy
    simp only [lt_iff_placeOf, le_iff_placeOf, hx, hy, true_and, not_le]
  beq_iff := by
    intro x y
    rw [beq_iff_placeOf, le_iff_placeOf, le_iff_placeOf, @le_antisymm_iff _ _ (placeOf x)]
    tauto

end doubles

/-! ### The lesser and the greater -/

variable {α : Type} [Scalar α] [Ordered α] {a b : α}

theorem min_eq_ite (hb : b ≤ b) : Scalar.min a b = if a < b then a else b := by
  unfold Scalar.min
  rw [if_pos (Ordered.beq_iff.mpr ⟨hb, hb⟩)]

theorem max_eq_ite (hb : b ≤ b) : Scalar.max a b = if b < a then a else b := by
  unfold Scalar.max
  rw [if_pos (Ordered.beq_iff.mpr ⟨hb, hb⟩)]

/-- The lesser of two numbers is one of them. -/
theorem min_eq_or (hb : b ≤ b) : Scalar.min a b = a ∨ Scalar.min a b = b := by
  rw [min_eq_ite hb]
  exact ite_eq_or_eq _ _ _

/-- The greater of two numbers is one of them. -/
theorem max_eq_or (hb : b ≤ b) : Scalar.max a b = a ∨ Scalar.max a b = b := by
  rw [max_eq_ite hb]
  exact ite_eq_or_eq _ _ _

theorem min_le (ha : a ≤ a) (hb : b ≤ b) : Scalar.min a b ≤ a ∧ Scalar.min a b ≤ b := by
  rw [min_eq_ite hb]
  split
  case isTrue h =>
    have hnot := (Ordered.lt_iff ha hb).mp h
    exact ⟨ha, (Ordered.total ha hb).resolve_right hnot⟩
  case isFalse h =>
    have hle := not_not.mp (mt (Ordered.lt_iff ha hb).mpr h)
    exact ⟨hle, hb⟩

theorem le_max (ha : a ≤ a) (hb : b ≤ b) : a ≤ Scalar.max a b ∧ b ≤ Scalar.max a b := by
  rw [max_eq_ite hb]
  split
  case isTrue h =>
    have hnot := (Ordered.lt_iff hb ha).mp h
    exact ⟨ha, (Ordered.total hb ha).resolve_right hnot⟩
  case isFalse h =>
    have hle := not_not.mp (mt (Ordered.lt_iff hb ha).mpr h)
    exact ⟨hle, hb⟩

end TriMesh.Scalar
