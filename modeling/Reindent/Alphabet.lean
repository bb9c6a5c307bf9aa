import Reindent.Text.CodePoint

/-!
The alphabet of the notation.

Layout looks at bytes and the lexer at code points, and both know the same few ASCII symbols.  Here
they are told apart by number, so that one table serves bytes, code points and any other integer;
a number that is no symbol of the table, negative ones included, is ordinary.
-/

namespace Reindent

namespace Code

/-- The number of the newline. -/
abbrev newline : Int := 0x0A

/-- The number of the double quote, which delimits strings. -/
abbrev quote : Int := 0x22

/-- The number of the number sign, which starts comments. -/
abbrev hash : Int := 0x23

/-- The number of the backslash, which escapes within strings. -/
abbrev backslash : Int := 0x5C

end Code

/-- What a symbol means outside strings and comments. -/
inductive Mark where
  /-- Raw whitespace, which layout drops. -/
  | blank
  /-- The start of a string. -/
  | quote
  /-- The start of a comment. -/
  | hash
  /-- An opening bracket or brace. -/
  | opener
  /-- A closing bracket or brace. -/
  | closer
  | colon
  | comma
  /-- A part of an atom. -/
  | ordinary
deriving DecidableEq

/-- The mark of the symbol with a given number.  Whitespace is the space and the five controls
from tab to carriage return. -/
def Mark.ofCode (code : Int) : Mark :=
  if code = 0x20 ∨ (0x09 ≤ code ∧ code ≤ 0x0D) then .blank
  else if code = Code.quote then .quote
  else if code = Code.hash then .hash
  else if code = 0x5B ∨ code = 0x7B then .opener
  else if code = 0x5D ∨ code = 0x7D then .closer
  else if code = 0x3A then .colon
  else if code = 0x2C then .comma
  else .ordinary

/-- Every mark that is not ordinary belongs to an ASCII symbol. -/
theorem Mark.ofCode_eq_ordinary {code : Int} (outside : code < 0 ∨ 0x80 ≤ code) :
    Mark.ofCode code = .ordinary := by
  simp only [Mark.ofCode, Code.quote, Code.hash]
  repeat rw [if_neg (by omega)]

/-- The number of a code point among all symbols. -/
def CodePoint.code (c : CodePoint) : Int := c.value

/-- The mark of a code point. -/
def CodePoint.mark (c : CodePoint) : Mark := Mark.ofCode c.code

/-- The number of a byte among all symbols. -/
def byteCode (byte : UInt8) : Int := byte.toNat

/-- The mark of a byte. -/
def byteMark (byte : UInt8) : Mark := Mark.ofCode (byteCode byte)

end Reindent
