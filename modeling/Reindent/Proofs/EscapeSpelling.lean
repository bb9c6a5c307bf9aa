import Reindent.CommandLine.Program
import Reindent.Proofs.EscapeItems

/-!
The spellings of a text with escapes.

A code point can be written as itself, by name, or by its number in octal or hexadecimal digits, and
a text may choose anew for each of its code points (`Spelled`).  Every spelling is one item whatever
follows it (`Spells.isItem`), so neighbours never disturb each other.  A code point that is no byte
becomes a numeric escape before it is read, and that is one of the other spellings.

Main statement: reading undoes every spelling, quoting among them (`decode_spelled`).
-/

namespace Reindent.Escape

/-! ### Numerals -/

/-- The digit of a number below sixteen, in either case. -/
def digitIn (upper : Bool) (digit : Nat) : CodePoint :=
  if upper && decide (10 ≤ digit) then CodePoint.ofNat (0x37 + digit) else Hex.digit digit

/-- Rows of digits that denote a number, the most significant digit first. -/
inductive Numeral (base : Nat) : (width value : Nat) → Text → Prop where
  | nil : Numeral base 0 0 []
  | snoc {width high digit : Nat} {text : Text} (before : Numeral base width high text)
      (small : digit < base) (upper : Bool) :
      Numeral base (width + 1) (high * base + digit) (text ++ [digitIn upper digit])

theorem digitValue?_digitIn {digit : Nat} (small : digit < 16) (upper : Bool) :
    Hex.digitValue? (digitIn upper digit).value = some digit := by
  have all : ∀ upper, ∀ digit : Fin 16,
      Hex.digitValue? (digitIn upper digit.val).value = some digit.val := by
    decide
  exact all upper ⟨digit, small⟩

/-- Octal digits have no case. -/
theorem value_digitIn {digit : Nat} (small : digit < 8) (upper : Bool) :
    (digitIn upper digit).value = 0x30 + digit := by
  have all : ∀ upper, ∀ digit : Fin 8, (digitIn upper digit.val).value = 0x30 + digit.val := by
    decide
  exact all upper ⟨digit, small⟩

theorem narrow_digitIn {digit : Nat} (small : digit < 16) (upper : Bool) :
    (digitIn upper digit).value < 0x100 := by
  have all : ∀ upper, ∀ digit : Fin 16, (digitIn upper digit.val).value < 0x100 := by decide
  exact all upper ⟨digit, small⟩

namespace Numeral

variable {base width value : Nat} {digits : Text}

theorem length (numeral : Numeral base width value digits) : digits.length = width := by
  induction numeral with
  | nil => rfl
  | snoc _ _ _ shorter => rw [List.length_append, shorter, List.length_singleton]

/-- What holds of every digit holds of every member of a numeral. -/
theorem forall_mem (numeral : Numeral base width value digits) {good : CodePoint → Prop}
    (each : ∀ digit < base, ∀ upper, good (digitIn upper digit)) : ∀ c ∈ digits, good c := by
  induction numeral with
  | nil =>
      intro c member
      cases member
  | snoc _ small upper shorter =>
      intro c member
      rcases List.mem_append.mp member with inside | last
      · exact shorter c inside
      · rw [List.mem_singleton.mp last]
        exact each _ small upper

theorem narrow (numeral : Numeral base width value digits) (few : base ≤ 16) :
    ∀ c ∈ digits, c.value < 0x100 :=
  numeral.forall_mem fun _ small => narrow_digitIn (Nat.lt_of_lt_of_le small few)

theorem hexDigits (numeral : Numeral 16 width value digits) :
    ∀ c ∈ digits, Hex.isDigit c.value = true := by
  refine numeral.forall_mem fun digit small upper => ?_
  rw [Hex.isDigit, digitValue?_digitIn small upper]
  rfl

theorem hexValue (numeral : Numeral 16 width value digits) :
    Hex.value (digits.map CodePoint.value) = value := by
  induction numeral with
  | nil => rfl
  | @snoc _ high digit text _ small upper shorter =>
      rw [Hex.value] at shorter
      rw [Hex.value, List.map_append, List.foldl_append, shorter]
      simp only [List.map_cons, List.map_nil, List.foldl_cons, List.foldl_nil,
        digitValue?_digitIn small upper, Option.getD_some]

theorem octalDigits (numeral : Numeral 8 width value digits) :
    ∀ c ∈ digits, isOctalDigit (byteOf c) = true := by
  refine numeral.forall_mem fun digit small upper => ?_
  have narrow := narrow_digitIn (Nat.lt_trans small (by decide)) upper
  rw [isOctalDigit, toNat_byteOf narrow, value_digitIn small upper]
  simp only [Char.reduceToNat, decide_eq_true_eq]
  omega

theorem octalValue_eq (numeral : Numeral 8 width value digits) :
    octalValue (digits.map byteOf) = value := by
  induction numeral with
  | nil => rfl
  | @snoc _ high digit text _ small upper shorter =>
      have narrow := narrow_digitIn (Nat.lt_trans small (by decide)) upper
      have digit_eq : (byteOf (digitIn upper digit)).toNat - '0'.toNat = digit := by
        rw [toNat_byteOf narrow, value_digitIn small upper]
        exact Nat.add_sub_cancel_left ..
      rw [octalValue] at shorter
      rw [octalValue, List.map_append, List.foldl_append, shorter]
      simp only [List.map_cons, List.map_nil, List.foldl_cons, List.foldl_nil, digit_eq]

/-- A number that fits has a numeral in lower case. -/
theorem lowerCase {width value : Nat} (fits : value < Nat.pow 16 width) :
    Numeral 16 width value (Hex.numeral width value) := by
  induction width generalizing value with
  | zero =>
      rw [Nat.lt_one_iff.mp fits]
      exact .nil
  | succ width shorter =>
      have high : value / 16 < Nat.pow 16 width := by
        have wider : Nat.pow 16 (width + 1) = Nat.pow 16 width * 16 := rfl
        omega
      have last := (shorter high).snoc (Nat.mod_lt value (by decide)) false
      rw [Nat.div_add_mod'] at last
      exact last

end Numeral

/-! ### Spellings -/

/-- The letters that stand for a code point each, and these code points. -/
def letters : List (Char × Nat) :=
  [('\'', 0x27), ('"', 0x22), ('a', 0x07), ('b', 0x08), ('t', 0x09), ('n', 0x0A), ('v', 0x0B),
    ('f', 0x0C), ('r', 0x0D)]

/-- The ways to write one code point. -/
inductive Spells (c : CodePoint) : Text → Prop where
  | itself (plain : c ≠ .ofChar '\\') : Spells c [c]
  | backslash (same : c = .ofChar '\\') : Spells c [.ofChar '\\', .ofChar '\\']
  | letter {letter : Char} (known : (letter, c.value) ∈ letters) :
      Spells c [.ofChar '\\', .ofChar letter]
  | octal {digits : Text} (numeral : Numeral 8 3 c.value digits) : Spells c (.ofChar '\\' :: digits)
  | hex {digits : Text} (width : EscapeWidth) (numeral : Numeral 16 width.digits c.value digits) :
      Spells c (.ofChar '\\' :: .ofChar width.letter :: digits)

/-- The ways to write a text: code point by code point, with escaped newlines in between. -/
inductive Spelled : (text escaped : Text) → Prop where
  | nil : Spelled [] []
  | continued {text escaped : Text} (later : Spelled text escaped) :
      Spelled text (.ofChar '\\' :: .ofChar '\n' :: escaped)
  | cons {c : CodePoint} {text spelling escaped : Text} (first : Spells c spelling)
      (later : Spelled text escaped) : Spelled (c :: text) (spelling ++ escaped)

/-- A text whose bytes are one item, whatever follows them and whatever names are known. -/
def IsItem (spelling meaning : Text) : Prop :=
  ∃ byte front, bytesOf spelling = byte :: front ∧
    ∀ names rest, itemAt names byte (front ++ rest) = ⟨front.length, .ok meaning⟩

theorem IsItem.reads {spelling meaning escaped following : Text} (item : IsItem spelling meaning)
    (later : Reads (bytesOf escaped) following) :
    Reads (bytesOf (spelling ++ escaped)) (meaning ++ following) := by
  obtain ⟨byte, front, bytes, here⟩ := item
  rw [bytesOf_append, bytes, List.cons_append]
  exact Reads.item (fun names => here names (bytesOf escaped)) later

/-- A backslash and what stands behind it are one item if the escape has just these bytes. -/
theorem isItem_escape {body meaning : Text} (narrow : ∀ c ∈ body, c.value < 0x100)
    (escape : ∀ names rest,
      escapeAt names (body.map byteOf ++ rest) = ⟨body.length, .ok meaning⟩) :
    IsItem (.ofChar '\\' :: body) meaning := by
  have all : ∀ c ∈ CodePoint.ofChar '\\' :: body, c.value < 0x100 :=
    List.forall_mem_cons.mpr ⟨by decide, narrow⟩
  refine ⟨byteOf (.ofChar '\\'), body.map byteOf, bytesOf_narrow all, fun names rest => ?_⟩
  rw [itemAt_backslash, escape, List.length_map]

theorem isItem_short {letter : Char} {meaning : Text} (narrow : letter.toNat < 0x100)
    (short : shortEscape? (byteOf (.ofChar letter)) = some meaning) :
    IsItem [.ofChar '\\', .ofChar letter] meaning := by
  refine isItem_escape ?_ fun names rest => escapeAt_short short rest
  intro c member
  rw [List.mem_singleton.mp member]
  exact narrow

theorem narrow_letter (width : EscapeWidth) : width.letter.toNat < 0x100 := by
  cases width <;> decide

theorem isItem_hex {c : CodePoint} {width : EscapeWidth} {digits : Text}
    (numeral : Numeral 16 width.digits c.value digits) :
    IsItem (.ofChar '\\' :: .ofChar width.letter :: digits) [c] := by
  have narrow := numeral.narrow (Nat.le_refl 16)
  have codes : (digits.map byteOf).map UInt8.toNat = digits.map CodePoint.value := by
    rw [List.map_map]
    exact List.map_congr_left fun c member => toNat_byteOf (narrow c member)
  have length : (digits.map byteOf).length = width.digits := by
    rw [List.length_map, numeral.length]
  have hex : ∀ byte ∈ digits.map byteOf, Hex.isDigit byte.toNat = true := by
    refine List.forall_mem_map.mpr fun c member => ?_
    rw [toNat_byteOf (narrow c member)]
    exact numeral.hexDigits c member
  have value : Hex.value ((digits.map byteOf).map UInt8.toNat) = c.value := by
    rw [codes, numeral.hexValue]
  refine isItem_escape (List.forall_mem_cons.mpr ⟨narrow_letter width, narrow⟩) fun names rest => ?_
  rw [List.map_cons, List.cons_append, escapeAt_numeric width length hex value,
    List.length_cons, numeral.length, Nat.add_comm]

theorem isItem_octal {c : CodePoint} {digits : Text} (numeral : Numeral 8 3 c.value digits) :
    IsItem (.ofChar '\\' :: digits) [c] := by
  refine isItem_escape (numeral.narrow (by decide)) fun names rest => ?_
  have length : (digits.map byteOf).length = 3 := by rw [List.length_map, numeral.length]
  rw [escapeAt_octal length (List.forall_mem_map.mpr numeral.octalDigits) numeral.octalValue_eq,
    numeral.length]

/-- The narrowest width that is chosen for a code point holds it. -/
theorem numeral_narrowest (c : CodePoint) :
    Numeral 16 (EscapeWidth.narrowest c).digits c.value
      (Hex.numeral (EscapeWidth.narrowest c).digits c.value) := by
  apply Numeral.lowerCase
  unfold EscapeWidth.narrowest
  split
  · assumption
  · split
    · assumption
    · exact Nat.lt_trans c.value_lt (by decide)

/-- A code point that is no byte has the bytes of its numeric escape. -/
theorem bytesOf_hexEscape {c : CodePoint} (wide : ¬c.value < 0x100) :
    bytesOf c.hexEscape = bytesOf [c] := by
  rw [bytesOf_wide wide]
  apply bytesOf_narrow
  refine List.forall_mem_cons.mpr ⟨by decide, List.forall_mem_cons.mpr ⟨narrow_letter _, ?_⟩⟩
  exact (numeral_narrowest c).narrow (Nat.le_refl 16)

/-- A code point that is no backslash means itself: one that is a byte at once, and any other by its
numeric escape. -/
theorem isItem_itself {c : CodePoint} (plain : c ≠ .ofChar '\\') : IsItem [c] [c] := by
  by_cases narrow : c.value < 0x100
  · refine ⟨byteOf c, [], bytesOf_narrow (by simpa using narrow), fun names rest => ?_⟩
    have different : (byteOf c).toNat ≠ '\\'.toNat := by
      rw [toNat_byteOf narrow]
      exact fun same => plain (CodePoint.ext same)
    rw [List.nil_append, itemAt_plain different, pointOf_byteOf narrow, List.length_nil]
  · rw [IsItem, ← bytesOf_hexEscape narrow]
    exact isItem_hex (numeral_narrowest c)

theorem Spells.isItem {c : CodePoint} {spelling : Text} (spells : Spells c spelling) :
    IsItem spelling [c] := by
  cases spells with
  | itself plain => exact isItem_itself plain
  | backslash same =>
      rw [same]
      exact isItem_short (by decide) (by decide)
  | @letter letter known =>
      have all : ∀ entry ∈ letters, entry.1.toNat < 0x100 ∧
          shortEscape? (byteOf (.ofChar entry.1)) = some [.ofNat entry.2] := by
        decide
      obtain ⟨narrow, short⟩ := all _ known
      rw [CodePoint.ofNat_value] at short
      exact isItem_short narrow short
  | octal numeral => exact isItem_octal numeral
  | hex width numeral => exact isItem_hex numeral

/-- Spellings are read one after the other, and escaped newlines mean nothing. -/
theorem Spelled.reads {text escaped : Text} (spelled : Spelled text escaped) :
    Reads (bytesOf escaped) text := by
  induction spelled with
  | nil => exact Reads.nil
  | continued _ later =>
      have newline : IsItem [.ofChar '\\', .ofChar '\n'] [] := isItem_short (by decide) (by decide)
      exact newline.reads later
  | cons first _ later => exact first.isItem.reads later

/-! ### Texts that spell themselves, and quoting -/

/-- Code points that are all spelled in one way each. -/
theorem spelled_flatMap {text : Text} {spell : CodePoint → Text}
    (each : ∀ c ∈ text, Spells c (spell c)) : Spelled text (text.flatMap spell) := by
  induction text with
  | nil => exact .nil
  | cons c rest later =>
      obtain ⟨first, others⟩ := List.forall_mem_cons.mp each
      exact .cons first (later others)

theorem spelled_itself {text : Text} (plain : CodePoint.ofChar '\\' ∉ text) :
    Spelled text text := by
  have each : ∀ c ∈ text, Spells c [c] :=
    fun c member => .itself fun same => plain (same ▸ member)
  have spelled := spelled_flatMap each
  rw [List.flatMap_singleton'] at spelled
  exact spelled

theorem delimiter_cases (text : Text) :
    text.delimiter = .ofChar '\'' ∨ text.delimiter = .ofChar '"' := by
  unfold Text.delimiter
  split
  · exact .inr rfl
  · exact .inl rfl

/-- Between delimiters every code point stands in one of its spellings. -/
theorem spells_quotedPoint (text : Text) (c : CodePoint) :
    Spells c (Text.quotedPoint text.delimiter c) := by
  unfold Text.quotedPoint
  split
  · rename_i escaped
    rcases escaped with rfl | rfl
    · rcases delimiter_cases text with quote | quote
      · rw [quote]
        exact .letter (by decide)
      · rw [quote]
        exact .letter (by decide)
    · exact .backslash rfl
  · rename_i unescaped
    split
    · rename_i tab
      exact .letter (by rw [tab]; decide)
    · split
      · rename_i newline
        exact .letter (by rw [newline]; decide)
      · split
        · rename_i carriageReturn
          exact .letter (by rw [carriageReturn]; decide)
        · split
          · exact .itself fun same => unescaped (.inr same)
          · exact .hex _ (numeral_narrowest c)

theorem spelled_quotedBody (text : Text) : Spelled text text.quotedBody :=
  spelled_flatMap fun c _ => spells_quotedPoint text c

/-- Reading undoes every spelling of a text, whatever names are known.  So a text without
backslashes means itself, and what stands between the delimiters of a quoted text means that text,
also where it is given as the indentation unit. -/
theorem decode_spelled (names : Names) :
    (∀ text escaped, Spelled text escaped → decode names escaped = .ok text) ∧
      (∀ text, CodePoint.ofChar '\\' ∉ text → decode names text = .ok text) ∧
      (∀ text : Text, decode names text.quotedBody = .ok text) ∧
      ∀ (settings : Settings) (unit : Text), settings.tabs = false →
        settings.indent = some (.given unit.quotedBody) →
          settings.indentation names = .ok (.custom unit) := by
  have read : ∀ text escaped, Spelled text escaped → decode names escaped = .ok text :=
    fun text escaped spelled => spelled.reads names 0
  have quoted : ∀ text : Text, decode names text.quotedBody = .ok text :=
    fun text => read _ _ (spelled_quotedBody text)
  refine ⟨read, fun text plain => read _ _ (spelled_itself plain), quoted, ?_⟩
  intro settings unit untabbed asked
  rw [Settings.indentation, asked, untabbed]
  simp only [Option.isSome_some, Bool.and_false, Bool.false_eq_true, if_false, quoted]

/-- Two adjacent surrogates, one as itself and one by number with digits of both cases, then an
escaped newline and three octal digits; and a unit in the form in which a log line shows it. -/
theorem decode_spelled_of_surrogates :
    Spelled [.ofNat 0xD83D, .ofNat 0xDE00, .ofNat 0xE9]
        [.ofNat 0xD83D, .ofChar '\\', .ofChar 'u', .ofChar 'D', .ofChar 'e', .ofChar '0',
          .ofChar '0', .ofChar '\\', .ofChar '\n', .ofChar '\\', .ofChar '3', .ofChar '5',
          .ofChar '1'] ∧
      decode .none [.ofNat 0xD83D, .ofChar '\\', .ofChar 'u', .ofChar 'D', .ofChar 'e',
          .ofChar '0', .ofChar '0', .ofChar '\\', .ofChar '\n', .ofChar '\\', .ofChar '3',
          .ofChar '5', .ofChar '1'] =
        .ok [.ofNat 0xD83D, .ofNat 0xDE00, .ofNat 0xE9] ∧
      Settings.indentation .none { indent := some (.given "\\ud83d\\t") } =
        .ok (.custom [.ofNat 0xD83D, .ofChar '\t']) := by
  have hex : Numeral 16 4 0xDE00 [.ofChar 'D', .ofChar 'e', .ofChar '0', .ofChar '0'] :=
    (((Numeral.nil.snoc (by decide : 13 < 16) true).snoc (by decide : 14 < 16) false).snoc
      (by decide : 0 < 16) false).snoc (by decide : 0 < 16) false
  have octal : Numeral 8 3 0xE9 [.ofChar '3', .ofChar '5', .ofChar '1'] :=
    ((Numeral.nil.snoc (by decide : 3 < 8) false).snoc (by decide : 5 < 8) false).snoc
      (by decide : 1 < 8) false
  have spelled := Spelled.cons (.itself (by decide : CodePoint.ofNat 0xD83D ≠ .ofChar '\\'))
    (.cons (.hex (c := .ofNat 0xDE00) .four hex)
      (.continued (.cons (.octal (c := .ofNat 0xE9) octal) .nil)))
  have quoted : Text.quotedBody [.ofNat 0xD83D, .ofChar '\t'] = "\\ud83d\\t" := by decide +kernel
  refine ⟨spelled, (decode_spelled .none).1 _ _ spelled, ?_⟩
  rw [← quoted]
  exact (decode_spelled .none).2.2.2 _ _ rfl rfl

end Reindent.Escape
