import Reindent.Proofs.Encoding
import Reindent.Text.Escape

/-!
Reading an escaped text item by item.

What an item means depends on its own bytes only, so a text is read by reading the item at its front
and then the rest, wherever that stands (`Reads.item`).  The forms of items that read well whatever
names are known are told here by equations: a byte that stands for itself, an escape of one letter,
a numeric escape with all its digits, and three octal digits.
-/

namespace Reindent.Escape

variable {names : Names}

/-! ### Bytes -/

/-- The byte of a code point below 256. -/
def byteOf (c : CodePoint) : UInt8 := UInt8.ofNat c.value

theorem toNat_byteOf {c : CodePoint} (narrow : c.value < 0x100) : (byteOf c).toNat = c.value :=
  Utf8.toNat_byte narrow

theorem pointOf_byteOf {c : CodePoint} (narrow : c.value < 0x100) : pointOf (byteOf c) = c := by
  ext
  exact toNat_byteOf narrow

theorem bytesOf_append (front back : Text) :
    bytesOf (front ++ back) = bytesOf front ++ bytesOf back :=
  List.flatMap_append

/-- Code points below 256 are one byte each. -/
theorem bytesOf_narrow {text : Text} (narrow : ∀ c ∈ text, c.value < 0x100) :
    bytesOf text = text.map byteOf := by
  induction text with
  | nil => rfl
  | cons c rest later =>
      obtain ⟨first, others⟩ := List.forall_mem_cons.mp narrow
      have front : bytesOf (c :: rest) = byteOf c :: bytesOf rest := by
        simp only [bytesOf, List.flatMap_cons, if_pos first]
        rfl
      rw [front, later others, List.map_cons]

/-- Any other code point is spelled as its numeric escape. -/
theorem bytesOf_wide {c : CodePoint} (wide : ¬c.value < 0x100) :
    bytesOf [c] = c.hexEscape.map byteOf := by
  simp only [bytesOf, List.flatMap_cons, List.flatMap_nil, if_neg wide, List.append_nil]
  rfl

/-! ### One item and then the rest -/

/-- Bytes that are read as a text, wherever they stand and whatever names are known. -/
def Reads (bytes : Bytes) (text : Text) : Prop :=
  ∀ names position, decodeFrom names position bytes = .ok text

theorem Reads.nil : Reads [] [] := by
  intro names position
  rw [decodeFrom]

/-- What is read behind an item stands behind its meaning, and what fails behind it fails. -/
theorem decodeFrom_item {byte : UInt8} {front rest : Bytes} {text : Text}
    (item : itemAt names byte (front ++ rest) = ⟨front.length, .ok text⟩) (position : Nat) :
    decodeFrom names position (byte :: (front ++ rest)) =
      match decodeFrom names (position + (front.length + 1)) rest with
      | .error error => .error error
      | .ok following => .ok (text ++ following) := by
  have behind : position + 1 + front.length = position + (front.length + 1) := by omega
  rw [decodeFrom]
  cases read : decodeFrom names (position + (front.length + 1)) rest with
  | error error => simp only [item, List.drop_left, behind, read]
  | ok following => simp only [item, List.drop_left, behind, read]

/-- What follows an item is read by itself. -/
theorem Reads.item {byte : UInt8} {front rest : Bytes} {text following : Text}
    (item : ∀ names, itemAt names byte (front ++ rest) = ⟨front.length, .ok text⟩)
    (later : Reads rest following) : Reads (byte :: (front ++ rest)) (text ++ following) := by
  intro names position
  rw [decodeFrom_item (item names), later]

/-! ### Items that read well -/

theorem itemAt_plain {byte : UInt8} (plain : byte.toNat ≠ '\\'.toNat) (rest : Bytes) :
    itemAt names byte rest = ⟨0, .ok [pointOf byte]⟩ :=
  if_neg plain

theorem itemAt_backslash (rest : Bytes) :
    itemAt names (byteOf (.ofChar '\\')) rest = escapeAt names rest :=
  if_pos (by decide)

theorem escapeAt_short {letter : UInt8} {meaning : Text}
    (short : shortEscape? letter = some meaning) (rest : Bytes) :
    escapeAt names (letter :: rest) = ⟨1, .ok meaning⟩ := by
  simp only [escapeAt, short]

/-- A numeric escape that has all its digits means the code point of their number. -/
theorem escapeAt_numeric (width : EscapeWidth) {digits : Bytes} {c : CodePoint}
    (length : digits.length = width.digits) (hex : ∀ byte ∈ digits, Hex.isDigit byte.toNat = true)
    (value : Hex.value (digits.map UInt8.toNat) = c.value) (rest : Bytes) :
    escapeAt names (byteOf (.ofChar width.letter) :: (digits ++ rest)) =
      ⟨1 + width.digits, .ok [c]⟩ := by
  have letter : shortEscape? (byteOf (.ofChar width.letter)) = none ∧
      widthOf? (byteOf (.ofChar width.letter)) = some width := by
    cases width <;> decide
  have taken : (((digits ++ rest).take width.digits).map UInt8.toNat).takeWhile Hex.isDigit =
      digits.map UInt8.toNat := by
    rw [List.take_left' length, List.takeWhile_eq_self_iff]
    simpa using hex
  simp only [escapeAt, letter, numericEscape, taken, value, List.length_map, length,
    Nat.lt_irrefl, if_false, dif_pos c.value_lt]

/-- An octal digit is neither the letter of an escape nor the start of another numeric one. -/
theorem letter_of_isOctalDigit {byte : UInt8} (octal : isOctalDigit byte = true) :
    shortEscape? byte = none ∧ widthOf? byte = none ∧ byte.toNat ≠ 'N'.toNat := by
  have digits : ∀ digit : Fin 8, shortEscape? (UInt8.ofNat (0x30 + digit.val)) = none ∧
      widthOf? (UInt8.ofNat (0x30 + digit.val)) = none ∧
      (UInt8.ofNat (0x30 + digit.val)).toNat ≠ 'N'.toNat := by
    decide
  obtain ⟨least, greatest⟩ := of_decide_eq_true octal
  simp only [Char.reduceToNat] at least greatest
  have same : UInt8.ofNat (0x30 + (byte.toNat - 0x30)) = byte := by
    rw [Nat.add_sub_cancel' least, UInt8.ofNat_toNat]
  rw [← same]
  exact digits ⟨byte.toNat - 0x30, by omega⟩

/-- Three octal digits mean the code point of their number, whatever follows them. -/
theorem escapeAt_octal {digits : Bytes} {c : CodePoint} (length : digits.length = 3)
    (octal : ∀ byte ∈ digits, isOctalDigit byte = true) (value : octalValue digits = c.value)
    (rest : Bytes) : escapeAt names (digits ++ rest) = ⟨3, .ok [c]⟩ := by
  obtain ⟨first, others, rfl⟩ := List.exists_cons_of_length_eq_add_one length
  obtain ⟨short, wide, unnamed⟩ := letter_of_isOctalDigit (octal first (List.mem_cons_self ..))
  have taken : ((first :: others ++ rest).take 3).takeWhile isOctalDigit = first :: others := by
    rw [List.take_left' length, List.takeWhile_eq_self_iff]
    exact octal
  rw [List.cons_append] at taken ⊢
  simp only [escapeAt, short, wide, if_neg unnamed, taken, List.isEmpty_cons, length, value,
    CodePoint.ofNat_value, Bool.false_eq_true, if_false]

end Reindent.Escape
