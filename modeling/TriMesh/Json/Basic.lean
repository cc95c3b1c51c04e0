/-! # JSON values

A JSON value as it was written: members of an object in order, repeated ones included, and numbers
apart by kind.

* **Numbers.** A literal without fraction and exponent is a natural number below `2 ^ 64` or a
  negative one down to `-2 ^ 63`; every other literal is the nearest double. A literal too large for
  a double is kept as an infinite one, and minus zero is a double.
* **Garbled text.** A string whose escapes leave half of a surrogate pair alone has no text, and an
  object with such a name cannot be taken apart. Both are kept as `garbled`, for they do no harm where
  nobody reads them.
* **Plain values** are those without infinite numbers, garbled text and deep nesting. -/

namespace TriMesh

/-- A number by the kind of its literal. -/
inductive JsonNumber where
  | natural (n : Nat)
  /-- The number `-n`. -/
  | negative (n : Nat)
  | real (x : Float)
deriving Repr, DecidableEq

/-- A JSON value. -/
inductive Json where
  | null
  | bool (b : Bool)
  | number (n : JsonNumber)
  | string (s : String)
  /-- A string that stands for no text, or an object with such a name. -/
  | garbled
  | array (items : List Json)
  | object (members : List (String × Json))
deriving Repr, Inhabited

namespace Json

/-- The value nests at most `depth` arrays and objects in each other, and holds neither infinite
numbers nor garbled text. -/
def isPlain (depth : Nat) (v : Json) : Bool :=
  match depth, v with
  | _, .null => true
  | _, .bool _ => true
  | _, .number (.real x) => x.isFinite
  | _, .number _ => true
  | _, .string _ => true
  | _, .garbled => false
  | 0, .array _ => false
  | 0, .object _ => false
  | depth + 1, .array items => items.all fun v => isPlain depth v
  | depth + 1, .object members => members.all fun m => isPlain depth m.2

/-- The text of a string. -/
def text? : Json → Option String
  | .string s => some s
  | _ => none

/-- The truth value. -/
def bool? : Json → Option Bool
  | .bool b => some b
  | _ => none

/-- Any finite number as a double. -/
def real? : Json → Option Float
  | .number (.natural n) => some (Float.ofNat n)
  | .number (.negative n) => some (-(Float.ofNat n))
  | .number (.real x) => if x.isFinite then some x else none
  | _ => none

/-- A natural number literal that fits into 32 bits. -/
def word? : Json → Option UInt32
  | .number (.natural n) => if n < UInt32.size then some n.toUInt32 else none
  | _ => none

/-- The items of an array, each read the same way. -/
def listOf? {β : Type} (read : Json → Option β) : Json → Option (List β)
  | .array items => items.mapM read
  | _ => none

/-- The value of the only member with a name; none if it is missing or repeated. -/
def only? (members : List (String × Json)) (name : String) : Option Json :=
  match members.filter fun m => m.1 == name with
  | [m] => some m.2
  | _ => none

/-- The values of a record's fields, in the order of their names: from an object by name, other
members being ignored, or from an array of exactly that many items by position. -/
def fields? (names : List String) : Json → Option (List Json)
  | .object members => names.mapM (only? members)
  | .array items => if items.length = names.length then some items else none
  | _ => none

end Json

end TriMesh
