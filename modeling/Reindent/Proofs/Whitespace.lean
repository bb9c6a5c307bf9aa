import Reindent.Margin
import Reindent.Proofs.Encoding

/-!
Whitespace as a text and as bytes.

A blank unit holds whitespace only, and so do the bytes of every line break that is made with it.
-/

namespace Reindent

/-- Symbols with a meaning are ASCII. -/
theorem CodePoint.ascii_of_mark {c : CodePoint} (meaning : c.mark ≠ .ordinary) :
    c.value < 0x80 := by
  apply Nat.lt_of_not_le
  intro outside
  exact meaning (Mark.ofCode_eq_ordinary (.inr (Int.ofNat_le.mpr outside)))

/-- An ASCII code point and its byte are the same symbol. -/
theorem byteCode_of_ascii {c : CodePoint} (ascii : c.value < 0x80) :
    byteCode (UInt8.ofNat c.value) = c.code := by
  rw [byteCode, Utf8.toNat_byte (by omega), CodePoint.code]

/-- A row of whitespace. -/
def Text.Blank (row : Text) : Prop := ∀ c ∈ row, c.mark = .blank

/-- Bytes of whitespace. -/
def Bytes.Blank (row : Bytes) : Prop := ∀ byte ∈ row, byteMark byte = .blank

namespace Text.Blank

variable {row : Text}

theorem ascii (blank : row.Blank) {c : CodePoint} (member : c ∈ row) : c.value < 0x80 := by
  apply CodePoint.ascii_of_mark
  rw [blank c member]
  decide

theorem encodable (blank : row.Blank) : row.Encodable := by
  intro c member
  have small := blank.ascii member
  rw [← Bool.not_eq_true, CodePoint.isSurrogate_iff]
  omega

theorem repeated (blank : row.Blank) (count : Nat) : Text.Blank (repeated count row) :=
  fun c member => blank c (mem_of_mem_repeated member)

/-- Whitespace is encoded as whitespace. -/
theorem bytes (blank : row.Blank) : Bytes.Blank (Utf8.bytesOfText row) := by
  intro byte member
  obtain ⟨c, inside, here⟩ := List.mem_flatMap.mp member
  have small := blank.ascii inside
  rw [Utf8.bytesOf_of_ascii small] at here
  rw [List.mem_singleton.mp here, byteMark, byteCode_of_ascii small]
  exact blank c inside

end Text.Blank

theorem Indentation.isBlank_iff {indentation : Indentation} :
    indentation.isBlank = true ↔ indentation.unit.Blank := by
  simp [isBlank, Text.Blank]

/-- The line breaks of a blank unit are whitespace. -/
theorem Margin.blank_breakBytes {margin : Margin} (blank : margin.indentation.isBlank = true)
    (level : Int) : Bytes.Blank (margin.breakBytes level) := by
  have newline : byteMark 0x0A = .blank := by decide
  have indented : Text.Blank (margin.indentation.text level) :=
    (Indentation.isBlank_iff.mp blank).repeated level.toNat
  unfold breakBytes
  rw [Indentation.bytes_eq]
  exact List.forall_mem_cons.mpr ⟨newline, indented.bytes⟩

end Reindent
