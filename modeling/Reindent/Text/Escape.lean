import Reindent.Text.HexEscape

/-!
Backslash escapes in an indentation unit.

A unit is read in two stages.  First it becomes bytes: a code point below 256 is one byte, and any
other is spelled as its numeric escape.  Then the bytes are read item by item: an escape means what
`escapeAt` says, and any other byte means the code point of the same number.

An escape may give a code point by name.  Which names there are is left to the caller, who brings
the table of them.

An escape that is malformed ends the reading with an error that names its fault and the positions
of its first and last byte.
-/

namespace Reindent.Escape

/-- What can be wrong with an escape. -/
inductive Fault where
  /-- The text ends after a backslash. -/
  | dangling
  /-- A numeric escape has fewer digits than its width. -/
  | truncated (width : EscapeWidth)
  /-- A numeric escape is above the last code point. -/
  | tooLarge
  /-- A name in braces is missing or does not end. -/
  | malformedName
  /-- A name in braces is not known. -/
  | unknownName
deriving DecidableEq

/-- A fault, and the positions of the first and the last byte of the escape that has it. -/
structure Error where
  fault : Fault
  first : Nat
  last : Nat
deriving DecidableEq

/-- One item of an escaped text: the offset of its last byte from its first, and what it means. -/
structure Item where
  last : Nat
  meaning : Except Fault Text

/-- The code points that are known by a name, which is given by its bytes. -/
abbrev Names := Bytes → Option CodePoint

/-- The table in which no name is known. -/
def Names.none : Names := fun _ => Option.none

/-- The code point that a byte stands for outside escapes. -/
def pointOf (byte : UInt8) : CodePoint :=
  ⟨byte.toNat, Nat.lt_trans byte.toNat_lt (by decide)⟩

/-- The code points of the escapes that consist of a backslash and one byte. -/
def shortEscape? (byte : UInt8) : Option Text :=
  match Char.ofNat byte.toNat with
  | '\n' => some []
  | '\\' => some [.ofChar '\\']
  | '\'' => some [.ofChar '\'']
  | '"' => some [.ofChar '"']
  | 'a' => some [.ofNat 0x07]
  | 'b' => some [.ofNat 0x08]
  | 't' => some [.ofNat 0x09]
  | 'n' => some [.ofNat 0x0A]
  | 'v' => some [.ofNat 0x0B]
  | 'f' => some [.ofNat 0x0C]
  | 'r' => some [.ofNat 0x0D]
  | _ => none

/-- The width that a letter announces. -/
def widthOf? (byte : UInt8) : Option EscapeWidth :=
  match Char.ofNat byte.toNat with
  | 'x' => some .two
  | 'u' => some .four
  | 'U' => some .eight
  | _ => none

/-- A numeric escape, by the bytes after its letter. -/
def numericEscape (width : EscapeWidth) (rest : Bytes) : Item :=
  let digits := ((rest.take width.digits).map UInt8.toNat).takeWhile Hex.isDigit
  if digits.length < width.digits then
    ⟨1 + digits.length, .error (.truncated width)⟩
  else if fits : Hex.value digits < 0x110000 then
    ⟨1 + width.digits, .ok [⟨Hex.value digits, fits⟩]⟩
  else
    ⟨1 + width.digits, .error .tooLarge⟩

/-- A named escape, by the bytes after its letter. -/
def namedEscape (names : Names) : Bytes → Item
  | [] => ⟨1, .error .malformedName⟩
  | opener :: rest =>
      let name := rest.takeWhile (fun byte => byte.toNat ≠ '}'.toNat)
      if opener.toNat ≠ '{'.toNat then ⟨1, .error .malformedName⟩
      else if name.length = rest.length then ⟨2 + name.length, .error .malformedName⟩
      else if name.isEmpty then ⟨2, .error .malformedName⟩
      else
        match names name with
        | some c => ⟨3 + name.length, .ok [c]⟩
        | none => ⟨3 + name.length, .error .unknownName⟩

/-- Whether a byte is an octal digit. -/
def isOctalDigit (byte : UInt8) : Bool :=
  decide ('0'.toNat ≤ byte.toNat ∧ byte.toNat ≤ '7'.toNat)

/-- The number that a row of octal digits denotes. -/
def octalValue (digits : Bytes) : Nat :=
  digits.foldl (fun high byte => high * 8 + (byte.toNat - '0'.toNat)) 0

/-- An escape, by the bytes after its backslash.  Up to three octal digits give a code point by
number; a backslash before anything that starts no escape stays. -/
def escapeAt (names : Names) : Bytes → Item
  | [] => ⟨0, .error .dangling⟩
  | letter :: rest =>
      match shortEscape? letter with
      | some meaning => ⟨1, .ok meaning⟩
      | none =>
          match widthOf? letter with
          | some width => numericEscape width rest
          | none =>
              if letter.toNat = 'N'.toNat then
                namedEscape names rest
              else
                let digits := ((letter :: rest).take 3).takeWhile isOctalDigit
                if digits.isEmpty then
                  ⟨1, .ok [.ofChar '\\', pointOf letter]⟩
                else
                  ⟨digits.length, .ok [.ofNat (octalValue digits)]⟩

/-- The item at the front of a byte sequence. -/
def itemAt (names : Names) (byte : UInt8) (rest : Bytes) : Item :=
  if byte.toNat = '\\'.toNat then escapeAt names rest else ⟨0, .ok [pointOf byte]⟩

/-- Read items up to the end or the first fault.  `position` is the position of the first byte. -/
def decodeFrom (names : Names) (position : Nat) : Bytes → Except Error Text
  | [] => .ok []
  | byte :: rest =>
      let item := itemAt names byte rest
      match item.meaning with
      | .error fault => .error ⟨fault, position, position + item.last⟩
      | .ok text =>
          match decodeFrom names (position + 1 + item.last) (rest.drop item.last) with
          | .error error => .error error
          | .ok following => .ok (text ++ following)
termination_by bytes => bytes.length
decreasing_by
  simp only [List.length_drop, List.length_cons]
  omega

/-- The bytes of an escaped text: a code point below 256 is one byte, and any other is spelled as a
numeric escape. -/
def bytesOf (text : Text) : Bytes :=
  text.flatMap fun c =>
    if c.value < 0x100 then [UInt8.ofNat c.value]
    else c.hexEscape.map fun symbol => UInt8.ofNat symbol.value

/-- The text that an escaped text stands for. -/
def decode (names : Names) (text : Text) : Except Error Text :=
  decodeFrom names 0 (bytesOf text)

/-- The reason that a message gives. -/
def Fault.reason : Fault → Text
  | .dangling => "\\ at end of string"
  | .truncated .two => "truncated \\xXX escape"
  | .truncated .four => "truncated \\uXXXX escape"
  | .truncated .eight => "truncated \\UXXXXXXXX escape"
  | .tooLarge => "illegal Unicode character"
  | .malformedName => "malformed \\N character escape"
  | .unknownName => "unknown Unicode character name"

/-- The message of an error names the positions, or the byte if there is only one. -/
def Error.message (error : Error) : Text :=
  let subject : Text :=
    if error.first = error.last then
      Text.ofString "byte 0x5c in position " ++ Text.ofNat error.first
    else
      Text.ofString "bytes in position " ++ Text.ofNat error.first ++ Text.ofString "-" ++
        Text.ofNat error.last
  Text.ofString "'unicodeescape' codec can't decode " ++ subject ++ Text.ofString ": " ++
    error.fault.reason

end Reindent.Escape
