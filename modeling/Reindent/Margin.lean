import Reindent.Indentation

/-!
Margins: the line breaks that an indentation makes, and the memory that there is to make them.

A line break is a newline and the indentation of a level.  It fails where the level is beyond the
64-bit range, where the indentation is longer than that range allows, where it outgrows the memory,
or where it cannot be encoded; the first of these is the one that is reported.  Why a line break
fails is found out without making it, so that a deep level costs nothing when it fails.

Main statement: a line break is a newline and the encoded rendering (`lineBreak_eq`).
-/

namespace Reindent

/-- Why a line break cannot be written. -/
inductive BreakError where
  /-- The level is not within the 64-bit range of lengths. -/
  | levelOutOfRange
  /-- The indentation would be longer than the 64-bit range of lengths allows. -/
  | uncountable
  /-- There is no memory for the indentation. -/
  | outOfMemory
  /-- The indentation holds surrogates. -/
  | unencodable (run : SurrogateRun)
deriving DecidableEq

/-- What a failed line break reports.  Want of memory is reported without words. -/
def BreakError.message : BreakError → Text
  | .levelOutOfRange => "cannot fit 'int' into an index-sized integer"
  | .uncountable => "repeated string is too long"
  | .outOfMemory => []
  | .unencodable run => run.message

/-- How much memory there is for a text. -/
inductive Memory where
  /-- There is memory for every text, and lengths are counted without end.  No machine is like this,
  but where levels rise one by one, a machine runs out of memory before it runs out of numbers. -/
  | unbounded
  /-- Lengths are counted in 64 bits, and there is memory for a text of `longest` code points and
  for none that is longer. -/
  | bounded (longest : Nat)
deriving DecidableEq

namespace Memory

/-- The memory of an ordinary machine, with room for 2^34 code points. -/
def ordinary : Memory := .bounded 0x400000000

/-- The memory of a machine that has room for every text whose length can be counted. -/
def countable : Memory := .bounded 0x7FFFFFFFFFFFFFFF

/-- Why there is no text of a given length.  A length is counted before memory is asked for. -/
def fault? (memory : Memory) (length : Nat) : Option BreakError :=
  match memory with
  | unbounded => none
  | bounded longest =>
      if 0x8000000000000000 ≤ length then some .uncountable
      else if longest < length then some .outOfMemory
      else none

end Memory

/-- How lines start: the indentation, and the memory that there is for it. -/
structure Margin where
  indentation : Indentation
  memory : Memory
deriving DecidableEq

/-- Levels within the 64-bit range of lengths, from -2^63 up to 2^63 - 1. -/
def LevelInRange (level : Int) : Prop :=
  -0x8000000000000000 ≤ level ∧ level < 0x8000000000000000

instance (level : Int) : Decidable (LevelInRange level) :=
  inferInstanceAs (Decidable (_ ∧ _))

namespace Margin

/-- Why the indentation of a level cannot be rendered. -/
def renderFault? (margin : Margin) (level : Int) : Option BreakError :=
  if LevelInRange level then
    if level ≤ 0 then none
    else margin.memory.fault? (level.toNat * margin.indentation.unit.length)
  else
    some .levelOutOfRange

/-- The indentation of a level. -/
def render (margin : Margin) (level : Int) : Except BreakError Text :=
  match margin.renderFault? level with
  | some error => .error error
  | none => .ok (margin.indentation.text level)

/-- Why a line break cannot be written. -/
def breakFault? (margin : Margin) (level : Int) : Option BreakError :=
  match margin.renderFault? level with
  | some error => some error
  | none =>
      (SurrogateRun.ofCopies? level.toNat margin.indentation.unit).map BreakError.unencodable

/-- The bytes of a line break that can be written. -/
def breakBytes (margin : Margin) (level : Int) : Bytes :=
  0x0A :: margin.indentation.bytes level

/-- The bytes of a line break. -/
def lineBreak (margin : Margin) (level : Int) : Except BreakError Bytes :=
  match margin.breakFault? level with
  | some error => .error error
  | none => .ok (margin.breakBytes level)

/-- Append a line break to a buffer.  The newline goes in first, so it stays there when the
indentation fails. -/
def appendLineBreak (margin : Margin) (buffer : Bytes) (level : Int) :
    Bytes × Except BreakError Unit :=
  match margin.lineBreak level with
  | .error error => (buffer ++ [0x0A], .error error)
  | .ok bytes => (buffer ++ bytes, .ok ())

/-- A line break is a newline and the encoded rendering. -/
theorem lineBreak_eq (margin : Margin) (level : Int) :
    margin.lineBreak level =
      match margin.render level with
      | .error error => .error error
      | .ok text =>
          match Utf8.encode text with
          | .error run => .error (.unencodable run)
          | .ok bytes => .ok (0x0A :: bytes) := by
  unfold lineBreak breakFault? render
  cases margin.renderFault? level with
  | some error => rfl
  | none =>
      simp only [SurrogateRun.ofCopies?_eq, Utf8.encode, breakBytes, Indentation.bytes_eq,
        Indentation.text]
      cases SurrogateRun.find? CodePoint.isSurrogate
          (repeated level.toNat margin.indentation.unit) <;> rfl

/-- A line break that can be made has the bytes of its newline and of its rendering. -/
theorem eq_of_lineBreak {margin : Margin} {level : Int} {bytes : Bytes}
    (made : margin.lineBreak level = .ok bytes) :
    bytes = 0x0A :: Utf8.bytesOfText (margin.indentation.text level) := by
  unfold lineBreak at made
  split at made
  · cases made
  · cases made
    rw [breakBytes, Indentation.bytes_eq]

end Margin

end Reindent
