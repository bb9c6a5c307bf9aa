import Reindent.Text.CodePoint

/-!
Numeric escapes: a backslash, a letter for the width, and that many hexadecimal digits.

The letters are `x` for two digits, `u` for four and `U` for eight.  A code point that is written
this way takes the narrowest width that holds it, in lower-case digits; digits of either case are
read.
-/

namespace Reindent

/-- The three widths of a numeric escape. -/
inductive EscapeWidth where
  | two
  | four
  | eight
deriving DecidableEq

namespace EscapeWidth

/-- How many digits follow the letter. -/
def digits : EscapeWidth → Nat
  | two => 2
  | four => 4
  | eight => 8

/-- The letter that announces the width. -/
def letter : EscapeWidth → Char
  | two => 'x'
  | four => 'u'
  | eight => 'U'

/-- The narrowest width that holds a code point. -/
def narrowest (c : CodePoint) : EscapeWidth :=
  if c.value < 0x100 then two else if c.value < 0x10000 then four else eight

end EscapeWidth

namespace Hex

/-- The lower-case digit of a number below sixteen. -/
def digit (value : Nat) : CodePoint :=
  CodePoint.ofNat (if value < 10 then 0x30 + value else 0x57 + value)

/-- The value of a digit of either case, given by its code. -/
def digitValue? (code : Nat) : Option Nat :=
  if 0x30 ≤ code ∧ code ≤ 0x39 then some (code - 0x30)
  else if 0x41 ≤ code ∧ code ≤ 0x46 then some (code - 0x37)
  else if 0x61 ≤ code ∧ code ≤ 0x66 then some (code - 0x57)
  else none

/-- Whether a code is that of a hexadecimal digit. -/
def isDigit (code : Nat) : Bool := (digitValue? code).isSome

/-- The last `width` digits of a number, the most significant one first. -/
def numeral : (width : Nat) → (value : Nat) → Text
  | 0, _ => []
  | width + 1, value => numeral width (value / 16) ++ [digit (value % 16)]

/-- The number that a row of digits denotes. -/
def value (codes : List Nat) : Nat :=
  codes.foldl (fun high code => high * 16 + (digitValue? code).getD 0) 0

end Hex

/-- A code point written as a numeric escape of a given width. -/
def CodePoint.hexEscapeOf (width : EscapeWidth) (c : CodePoint) : Text :=
  CodePoint.ofChar '\\' :: CodePoint.ofChar width.letter :: Hex.numeral width.digits c.value

/-- A code point written as its narrowest numeric escape. -/
def CodePoint.hexEscape (c : CodePoint) : Text :=
  c.hexEscapeOf (EscapeWidth.narrowest c)

end Reindent
