import TriMesh.Text.Marks
import TriMesh.Text.Unassigned

/-! # Quoted text

A text between double quotes, with escapes for what would end it or not show: the quote, the
backslash, tab, line feed, carriage return and NUL by a letter, other invisible characters, combining
marks and unassigned codes by their code point in hexadecimal. Everything else, a single quote and visible
letters of any script included, stands for itself. -/

namespace TriMesh.Text

/-- Inclusive ranges of code points without a visible form of their own: controls, spaces other than
the plain one, marks of direction, the fillers of Korean syllables and private codes. -/
def blankRanges : CodeRanges :=
  [(0x00, 0x1f), (0x7f, 0xa0), (0xad, 0xad), (0x600, 0x605), (0x61c, 0x61c), (0x6dd, 0x6dd),
   (0x70f, 0x70f), (0x890, 0x891), (0x8e2, 0x8e2), (0x115f, 0x1160), (0x1680, 0x1680),
   (0x180e, 0x180e), (0x2000, 0x200f), (0x2028, 0x202f), (0x205f, 0x2064), (0x2066, 0x206f),
   (0x3000, 0x3000), (0x3164, 0x3164), (0xe000, 0xf8ff), (0xfeff, 0xfeff), (0xffa0, 0xffa0),
   (0xfff9, 0xfffb), (0x110bd, 0x110bd), (0x110cd, 0x110cd), (0x13430, 0x1343f),
   (0x1bca0, 0x1bca3), (0x1d173, 0x1d17a), (0xe0001, 0xe0001), (0xe0020, 0xe007f),
   (0xf0000, 0xffffd), (0x100000, 0x10fffd)]

/-- The character has no visible form of its own. -/
def isBlank (c : Char) : Bool := blankRanges.contains c

/-- One character between quotes. -/
def quoteChar (c : Char) : List Char :=
  match c with
  | '"' => ['\\', '"']
  | '\\' => ['\\', '\\']
  | '\n' => ['\\', 'n']
  | '\r' => ['\\', 'r']
  | '\t' => ['\\', 't']
  | c =>
    if c.toNat = 0 then ['\\', '0']
    else if isBlank c || isMark c || isUnassigned c then
      ['\\', 'u', '{'] ++ Nat.toDigits 16 c.toNat ++ ['}']
    else [c]

/-- A text between double quotes. -/
def quoted (s : String) : String :=
  String.ofList ('"' :: s.toList.flatMap quoteChar ++ ['"'])

end TriMesh.Text
