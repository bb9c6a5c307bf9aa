import Reindent.Alphabet
import Reindent.Text.Quoted
import Reindent.Text.Utf8

/-!
Indentation units.

A unit is repeated once for each level of nesting.  Spaces or a tab are the usual units, but any
text will do, the empty one included.  Levels are integers; up to zero they have no indentation.
-/

namespace Reindent

/-- How lines are indented: by the standard unit, or by a unit of the caller's. -/
inductive Indentation where
  | standard
  | custom (unit : Text)
deriving DecidableEq

namespace Indentation

/-- What stands for one level; the standard unit is two spaces. -/
def unit : Indentation → Text
  | standard => [.ofChar ' ', .ofChar ' ']
  | custom unit => unit

/-- Whether rendered indentation is only raw whitespace. -/
def isBlank (indentation : Indentation) : Bool :=
  indentation.unit.all fun c => c.mark == .blank

/-- The indentation of a level. -/
def text (indentation : Indentation) (level : Int) : Text :=
  repeated level.toNat indentation.unit

theorem length_text (indentation : Indentation) (level : Int) :
    (indentation.text level).length = level.toNat * indentation.unit.length :=
  length_repeated ..

/-- The encoded indentation of a level, for a unit that can be encoded. -/
def bytes (indentation : Indentation) (level : Int) : Bytes :=
  if level ≤ 0 then [] else repeated level.toNat (Utf8.bytesOfText indentation.unit)

/-- Encoding the unit first is encoding the whole. -/
theorem bytes_eq (indentation : Indentation) (level : Int) :
    indentation.bytes level = Utf8.bytesOfText (indentation.text level) := by
  unfold bytes text
  split
  · rename_i none_open
    rw [Int.toNat_of_nonpos none_open]
    simp [Utf8.bytesOfText]
  · exact (flatMap_repeated Utf8.bytesOf level.toNat indentation.unit).symm

/-- How a log line names an indentation. -/
def describe : Indentation → Text
  | standard => "Default()"
  | custom unit => Text.ofString "Custom(" ++ unit.quoted ++ Text.ofString ")"

end Indentation

end Reindent
