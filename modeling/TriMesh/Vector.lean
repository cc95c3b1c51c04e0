import TriMesh.Scalar

/-! # Vectors

Points and directions in the plane (`Vec2`) and in space (`Vec3`), with the few operations that
the generators need.

* **Directions.** `tryNormalize` answers only for a vector whose reciprocal length is finite and
  positive; `normalizeOrZero` replaces the missing answer by zero.
* **Equality** (`==`) compares component by component as scalars do, so a double that is not a
  number makes a vector differ from itself and the two zeros are equal. -/

namespace TriMesh

/-- A point or direction in the plane. -/
structure Vec2 (α : Type) where
  /-- First component. -/
  x : α
  /-- Second component. -/
  y : α
deriving Repr, Inhabited

/-- A point or direction in space. -/
structure Vec3 (α : Type) where
  /-- First component. -/
  x : α
  /-- Second component. -/
  y : α
  /-- Third component, along the axis of every swept solid. -/
  z : α
deriving Repr, Inhabited

variable {α : Type} [Scalar α]

/-! ### The plane -/

namespace Vec2

instance : BEq (Vec2 α) := ⟨fun a b => a.x == b.x && a.y == b.y⟩
instance : Zero (Vec2 α) := ⟨⟨0, 0⟩⟩
instance : Add (Vec2 α) := ⟨fun a b => ⟨a.x + b.x, a.y + b.y⟩⟩
instance : Sub (Vec2 α) := ⟨fun a b => ⟨a.x - b.x, a.y - b.y⟩⟩
instance : Neg (Vec2 α) := ⟨fun a => ⟨-a.x, -a.y⟩⟩

/-- Both components multiplied by one factor. -/
instance : HMul (Vec2 α) α (Vec2 α) := ⟨fun a s => ⟨a.x * s, a.y * s⟩⟩

/-- Both components divided by one divisor. -/
instance : HDiv (Vec2 α) α (Vec2 α) := ⟨fun a s => ⟨a.x / s, a.y / s⟩⟩

/-- The vector with equal components. -/
def splat (s : α) : Vec2 α := ⟨s, s⟩

/-- Product taken component by component. -/
def mulEach (a b : Vec2 α) : Vec2 α := ⟨a.x * b.x, a.y * b.y⟩

/-- Quotient taken component by component. -/
def divEach (a b : Vec2 α) : Vec2 α := ⟨a.x / b.x, a.y / b.y⟩

/-- Least components of two vectors. -/
def min (a b : Vec2 α) : Vec2 α := ⟨Scalar.min a.x b.x, Scalar.min a.y b.y⟩

/-- Greatest components of two vectors. -/
def max (a b : Vec2 α) : Vec2 α := ⟨Scalar.max a.x b.x, Scalar.max a.y b.y⟩

/-- Inner product. -/
def dot (a b : Vec2 α) : α := a.x * b.x + a.y * b.y

/-- Twice the signed area of the triangle spanned by two vectors. -/
def perpDot (a b : Vec2 α) : α := a.x * b.y - a.y * b.x

/-- Euclidean length. -/
def length (a : Vec2 α) : α := Scalar.sqrt (a.dot a)

/-- Euclidean distance of two points. -/
def distance (a b : Vec2 α) : α := (a - b).length

/-- The unit vector of the same direction, if the reciprocal length is finite and positive. -/
def tryNormalize (a : Vec2 α) : Option (Vec2 α) :=
  let r := 1 / a.length
  if Scalar.isFinite r ∧ 0 < r then some (a * r) else none

/-- The point of space above a point of the plane. -/
def extend (a : Vec2 α) (z : α) : Vec3 α := ⟨a.x, a.y, z⟩

end Vec2

/-! ### Space -/

namespace Vec3

instance : BEq (Vec3 α) := ⟨fun a b => a.x == b.x && a.y == b.y && a.z == b.z⟩
instance : Zero (Vec3 α) := ⟨⟨0, 0, 0⟩⟩
instance : Add (Vec3 α) := ⟨fun a b => ⟨a.x + b.x, a.y + b.y, a.z + b.z⟩⟩
instance : Sub (Vec3 α) := ⟨fun a b => ⟨a.x - b.x, a.y - b.y, a.z - b.z⟩⟩
instance : Neg (Vec3 α) := ⟨fun a => ⟨-a.x, -a.y, -a.z⟩⟩

/-- All components multiplied by one factor. -/
instance : HMul (Vec3 α) α (Vec3 α) := ⟨fun a s => ⟨a.x * s, a.y * s, a.z * s⟩⟩

/-- All components divided by one divisor. -/
instance : HDiv (Vec3 α) α (Vec3 α) := ⟨fun a s => ⟨a.x / s, a.y / s, a.z / s⟩⟩

/-- The vector with equal components. -/
def splat (s : α) : Vec3 α := ⟨s, s, s⟩

/-- The unit vector along the first axis. -/
def unitX : Vec3 α := ⟨1, 0, 0⟩

/-- The unit vector along the second axis. -/
def unitY : Vec3 α := ⟨0, 1, 0⟩

/-- The unit vector along the third axis. -/
def unitZ : Vec3 α := ⟨0, 0, 1⟩

/-- The unit vector against the third axis. -/
def negUnitZ : Vec3 α := ⟨0, 0, -1⟩

/-- Product taken component by component. -/
def mulEach (a b : Vec3 α) : Vec3 α := ⟨a.x * b.x, a.y * b.y, a.z * b.z⟩

/-- Least components of two vectors. -/
def min (a b : Vec3 α) : Vec3 α := ⟨Scalar.min a.x b.x, Scalar.min a.y b.y, Scalar.min a.z b.z⟩

/-- Greatest components of two vectors. -/
def max (a b : Vec3 α) : Vec3 α := ⟨Scalar.max a.x b.x, Scalar.max a.y b.y, Scalar.max a.z b.z⟩

/-- Inner product. -/
def dot (a b : Vec3 α) : α := a.x * b.x + a.y * b.y + a.z * b.z

/-- Cross product. -/
def cross (a b : Vec3 α) : Vec3 α :=
  ⟨a.y * b.z - b.y * a.z, a.z * b.x - b.z * a.x, a.x * b.y - b.x * a.y⟩

/-- Euclidean length. -/
def length (a : Vec3 α) : α := Scalar.sqrt (a.dot a)

/-- The vector divided by its length, whatever that is. -/
def normalize (a : Vec3 α) : Vec3 α := a * (1 / a.length)

/-- The unit vector of the same direction, if the reciprocal length is finite and positive. -/
def tryNormalize (a : Vec3 α) : Option (Vec3 α) :=
  let r := 1 / a.length
  if Scalar.isFinite r ∧ 0 < r then some (a * r) else none

/-- The unit vector of the same direction, or zero if there is none. -/
def normalizeOrZero (a : Vec3 α) : Vec3 α := a.tryNormalize.getD 0

/-- A unit vector perpendicular to a given unit vector. -/
def anyOrthonormal (v : Vec3 α) : Vec3 α :=
  let s := Scalar.unitSign v.z
  let a := -1 / (s + v.z)
  ⟨v.x * v.y * a, s + v.y * v.y * a, -v.y⟩

/-- Sum of a list of vectors, from left to right and starting at zero. -/
def sum (vs : List (Vec3 α)) : Vec3 α := vs.foldl (· + ·) 0

end Vec3

end TriMesh
