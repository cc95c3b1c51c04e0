import TriMesh.Json.Basic

/-! # JSON text

Reads one JSON value from a text, with blanks around it and nothing behind it. The grammar is
strict: no leading zeros, no bare points, no control characters in strings, no trailing commas.

* **Recursion.** Values nest, so reading them takes a fuel. Every call that passes fuel on either
  consumes a character or is followed by one that does, so twice the length of the text suffices.
* **Rounding.** A decimal literal is read as the double nearest to it. Literals that are certain to
  overflow or to vanish are settled by their number of digits, without computing the power. -/

namespace TriMesh.Json

/-! ### Numbers -/

/-- The number that a list of decimal digits spells. -/
def digitsValue (ds : List Char) : Nat := ds.foldl (fun n d => 10 * n + (d.toNat - '0'.toNat)) 0

/-- The leading decimal digits and the rest. -/
def spanDigits (cs : List Char) : List Char × List Char :=
  (cs.takeWhile Char.isDigit, cs.dropWhile Char.isDigit)

/-- The double nearest to `m * 10 ^ e`, infinite if that is too large. -/
def decimalValue (m : Nat) (e : Int) : Float :=
  let lead : Int := (Nat.toDigits 10 m).length + e
  if m = 0 ∨ lead < -330 then 0
  else if 320 < lead then 1 / 0
  else Float.ofScientific m (e < 0) e.natAbs

/-- An integer literal with the given sign and value. -/
def integerNumber (negative : Bool) (n : Nat) : JsonNumber :=
  if negative then
    if n = 0 then .real (-0.0)
    else if n ≤ 9223372036854775808 then .negative n
    else .real (-(decimalValue n 0))
  else if n < UInt64.size then .natural n
  else .real (decimalValue n 0)

/-- The digits behind a point, none without a point; a point needs a digit behind it. -/
def fraction? : List Char → Option (List Char × List Char)
  | '.' :: rest =>
    match spanDigits rest with
    | ([], _) => none
    | (ds, rest) => some (ds, rest)
  | cs => some ([], cs)

/-- An optional sign. -/
def sign : List Char → Bool × List Char
  | '-' :: rest => (true, rest)
  | '+' :: rest => (false, rest)
  | cs => (false, cs)

/-- The exponent behind an `e`, if there is one; an `e` needs a digit behind it. -/
def exponent? : List Char → Option (Option Int × List Char)
  | c :: rest =>
    if c = 'e' ∨ c = 'E' then
      match sign rest with
      | (negative, rest) =>
        match spanDigits rest with
        | ([], _) => none
        | (ds, rest) =>
          let e : Int := digitsValue ds
          some (some (if negative then -e else e), rest)
    else some (none, c :: rest)
  | [] => some (none, [])

/-- The digits before a point: a zero alone, or digits without a leading zero. -/
def whole? (cs : List Char) : Option (List Char × List Char) :=
  match cs with
  | '0' :: rest => if (spanDigits rest).1 = [] then some (['0'], rest) else none
  | cs =>
    match spanDigits cs with
    | ([], _) => none
    | (ds, rest) => some (ds, rest)

/-- A number without its sign. -/
def unsigned? (negative : Bool) (cs : List Char) : Option (JsonNumber × List Char) := do
  let (whole, cs) ← whole? cs
  let (fraction, cs) ← fraction? cs
  let (exponent, cs) ← exponent? cs
  match fraction, exponent with
  | [], none => return (integerNumber negative (digitsValue whole), cs)
  | _, _ =>
    let x := decimalValue (digitsValue (whole ++ fraction))
      (exponent.getD 0 - (fraction.length : Int))
    return (.real (if negative then -x else x), cs)

/-- A number. -/
def number? : List Char → Option (JsonNumber × List Char)
  | '-' :: rest => unsigned? true rest
  | cs => unsigned? false cs

/-! ### Strings -/

/-- The value of a hexadecimal digit. -/
def hexDigit? (c : Char) : Option Nat :=
  if '0' ≤ c ∧ c ≤ '9' then some (c.toNat - '0'.toNat)
  else if 'a' ≤ c ∧ c ≤ 'f' then some (c.toNat - 'a'.toNat + 10)
  else if 'A' ≤ c ∧ c ≤ 'F' then some (c.toNat - 'A'.toNat + 10)
  else none

/-- The value of four hexadecimal digits. -/
def hexValue? (a b c d : Char) : Option Nat := do
  return ((← hexDigit? a) * 16 + (← hexDigit? b)) * 256 + (← hexDigit? c) * 16 + (← hexDigit? d)

/-- The character that a one-letter escape stands for. -/
def escaped? : Char → Option Char
  | '"' => some '"'
  | '\\' => some '\\'
  | '/' => some '/'
  | 'b' => some '\x08'
  | 'f' => some '\x0c'
  | 'n' => some '\n'
  | 'r' => some '\r'
  | 't' => some '\t'
  | _ => none

/-- The code is the first half of a surrogate pair. -/
def isHighSurrogate (n : Nat) : Bool := 0xd800 ≤ n && n < 0xdc00

/-- The code is the second half of a surrogate pair. -/
def isLowSurrogate (n : Nat) : Bool := 0xdc00 ≤ n && n < 0xe000

/-- The code point of a surrogate pair. -/
def surrogatePair (high low : Nat) : Char :=
  Char.ofNat (0x10000 + (high - 0xd800) * 0x400 + (low - 0xdc00))

/-- One piece of a string's text: a character, or half of a surrogate pair. -/
inductive Piece where
  | char (c : Char)
  | half (code : Nat)
deriving Repr

/-- The pieces up to the closing quote, and the rest. -/
def pieces? : List Char → Option (List Piece × List Char)
  | [] => none
  | '"' :: rest => some ([], rest)
  | '\\' :: 'u' :: a :: b :: c :: d :: rest => do
    let n ← hexValue? a b c d
    let (ps, rest) ← pieces? rest
    let surrogate := isHighSurrogate n || isLowSurrogate n
    return ((if surrogate then .half n else .char (Char.ofNat n)) :: ps, rest)
  | '\\' :: c :: rest => do
    let c ← escaped? c
    let (ps, rest) ← pieces? rest
    return (.char c :: ps, rest)
  | c :: rest => do
    if c.toNat < 0x20 then none
    else
      let (ps, rest) ← pieces? rest
      return (.char c :: ps, rest)

/-- The text of some pieces, if every half of a surrogate pair has its other half behind it. -/
def joinPieces? : List Piece → Option (List Char)
  | [] => some []
  | .char c :: rest => (joinPieces? rest).map (c :: ·)
  | .half high :: .half low :: rest =>
    if isHighSurrogate high && isLowSurrogate low then
      (joinPieces? rest).map (surrogatePair high low :: ·)
    else none
  | .half _ :: _ => none

/-- A string behind its opening quote, `none` inside if it is garbled. -/
def string? (cs : List Char) : Option (Option String × List Char) :=
  (pieces? cs).map fun (ps, rest) => ((joinPieces? ps).map String.ofList, rest)

/-! ### Values -/

/-- The object with some members, garbled if a name is. -/
def ofMembers (members : List (Option String × Json)) : Json :=
  match members.mapM fun m => m.1.map (·, m.2) with
  | some members => .object members
  | none => .garbled

/-- The character is a blank of the grammar. -/
def isBlank (c : Char) : Bool := c = ' ' || c = '\n' || c = '\t' || c = '\r'

/-- The text without leading blanks. -/
def skipBlanks (cs : List Char) : List Char := cs.dropWhile isBlank

/-- The rest of a text that begins with a word. -/
def word (w : List Char) (cs : List Char) : Option (List Char) :=
  if w.isPrefixOf cs then some (cs.drop w.length) else none

mutual

/-- One value, after blanks. -/
def value? (fuel : Nat) (cs : List Char) : Option (Json × List Char) :=
  match fuel with
  | 0 => none
  | fuel + 1 =>
    match skipBlanks cs with
    | '"' :: rest => (string? rest).map fun (s, rest) => ((s.map Json.string).getD .garbled, rest)
    | '[' :: rest =>
      match skipBlanks rest with
      | ']' :: rest => some (.array [], rest)
      | rest => (items? fuel rest).map fun (vs, rest) => (.array vs, rest)
    | '\x7b' :: rest =>
      match skipBlanks rest with
      | '\x7d' :: rest => some (.object [], rest)
      | rest => (members? fuel rest).map fun (ms, rest) => (ofMembers ms, rest)
    | 't' :: rest => (word ['r', 'u', 'e'] rest).map fun rest => (.bool true, rest)
    | 'f' :: rest => (word ['a', 'l', 's', 'e'] rest).map fun rest => (.bool false, rest)
    | 'n' :: rest => (word ['u', 'l', 'l'] rest).map fun rest => (.null, rest)
    | rest => (number? rest).map fun (n, rest) => (.number n, rest)

/-- The items of an array up to its closing bracket; at least one. -/
def items? (fuel : Nat) (cs : List Char) : Option (List Json × List Char) :=
  match fuel with
  | 0 => none
  | fuel + 1 => do
    let (v, rest) ← value? fuel cs
    match skipBlanks rest with
    | ',' :: rest =>
      let (vs, rest) ← items? fuel rest
      return (v :: vs, rest)
    | ']' :: rest => return ([v], rest)
    | _ => none

/-- The members of an object up to its closing brace; at least one. -/
def members? (fuel : Nat) (cs : List Char) :
    Option (List (Option String × Json) × List Char) :=
  match fuel with
  | 0 => none
  | fuel + 1 =>
    match skipBlanks cs with
    | '"' :: rest => do
      let (name, rest) ← string? rest
      match skipBlanks rest with
      | ':' :: rest =>
        let (v, rest) ← value? fuel rest
        match skipBlanks rest with
        | ',' :: rest =>
          let (ms, rest) ← members? fuel rest
          return ((name, v) :: ms, rest)
        | '\x7d' :: rest => return ([(name, v)], rest)
        | _ => none
      | _ => none
    | _ => none

end

/-- The JSON value that a text spells. -/
def parse? (text : String) : Option Json :=
  let cs := text.toList
  match value? (2 * cs.length + 1) cs with
  | some (v, rest) => if skipBlanks rest = [] then some v else none
  | none => none

end TriMesh.Json
