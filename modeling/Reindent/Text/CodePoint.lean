/-!
Code points, texts and bytes.

A text is a list of code points, and a code point is any number below 0x110000.  Surrogates are
code points like all others here: command line arguments and decoded indentation units may hold
them, and two adjacent ones stay two code points.  Only encoding to bytes refuses them, so core's
`Char`, which excludes surrogates, is too narrow a type for a text.
-/

namespace Reindent

/-- A Unicode code point, surrogates included. -/
structure CodePoint where
  value : Nat
  value_lt : value < 0x110000
deriving DecidableEq

/-- A text is a list of code points. -/
abbrev Text := List CodePoint

/-- The content of a file or of a stream. -/
abbrev Bytes := List UInt8

namespace CodePoint

@[ext] theorem ext {first second : CodePoint} (same : first.value = second.value) :
    first = second := by
  cases first
  cases second
  simp_all

/-- The code point with a given number; a number that is too large gives U+FFFD. -/
def ofNat (value : Nat) : CodePoint :=
  if fits : value < 0x110000 then ⟨value, fits⟩ else ⟨0xFFFD, by decide⟩

@[simp] theorem value_ofNat {value : Nat} (fits : value < 0x110000) :
    (ofNat value).value = value := by
  simp [ofNat, fits]

@[simp] theorem ofNat_value (c : CodePoint) : ofNat c.value = c := by
  ext
  simp [c.value_lt]

/-- Every character of core is a code point. -/
def ofChar (c : Char) : CodePoint :=
  ⟨c.toNat, by
    have valid := c.valid
    simp only [UInt32.isValidChar, Nat.isValidChar] at valid
    simp only [Char.toNat]
    omega⟩

@[simp] theorem value_ofChar (c : Char) : (ofChar c).value = c.toNat := rfl

/-- A surrogate is half of a pair in UTF-16 and stands for no character. -/
def isSurrogate (c : CodePoint) : Bool :=
  decide (0xD800 ≤ c.value ∧ c.value ≤ 0xDFFF)

theorem isSurrogate_iff (c : CodePoint) :
    c.isSurrogate = true ↔ 0xD800 ≤ c.value ∧ c.value ≤ 0xDFFF := by
  simp [isSurrogate]

@[simp] theorem isSurrogate_ofChar (c : Char) : (ofChar c).isSurrogate = false := by
  have valid := c.valid
  simp only [UInt32.isValidChar, Nat.isValidChar] at valid
  rw [← Bool.not_eq_true, isSurrogate_iff, value_ofChar, Char.toNat]
  omega

/-- Whether a code point lies in one of a list of ranges, each given by its two ends. -/
def within (ranges : List (Nat × Nat)) (c : CodePoint) : Bool :=
  ranges.any fun range => decide (range.1 ≤ c.value ∧ c.value ≤ range.2)

end CodePoint

namespace Text

/-- The code points of a string. -/
def ofString (s : String) : Text := s.toList.map CodePoint.ofChar

/-- The decimal numeral of a number. -/
def ofNat (n : Nat) : Text := ofString (toString n)

/-- The decimal numeral of an integer, with a minus sign if it is negative. -/
def ofInt (n : Int) : Text := ofString (toString n)

end Text

/-- `count` copies of a row, one after the other. -/
def repeated {α : Type} (count : Nat) (unit : List α) : List α :=
  if unit.isEmpty then [] else (List.replicate count unit).flatten

section Repeated

variable {α : Type}

theorem repeated_eq (count : Nat) (unit : List α) :
    repeated count unit = (List.replicate count unit).flatten := by
  unfold repeated
  split
  · rename_i empty
    simp [List.isEmpty_iff.mp empty]
  · rfl

@[simp] theorem repeated_zero (unit : List α) : repeated 0 unit = [] := by
  simp [repeated_eq]

@[simp] theorem repeated_one (unit : List α) : repeated 1 unit = unit := by
  simp [repeated_eq]

theorem repeated_succ (count : Nat) (unit : List α) :
    repeated (count + 1) unit = unit ++ repeated count unit := by
  simp [repeated_eq, List.replicate_succ]

@[simp] theorem repeated_nil (count : Nat) : repeated count ([] : List α) = [] := by
  simp [repeated]

@[simp] theorem length_repeated (count : Nat) (unit : List α) :
    (repeated count unit).length = count * unit.length := by
  induction count with
  | zero => simp
  | succ count counted => simp [repeated_succ, counted, Nat.succ_mul, Nat.add_comm]

theorem mem_of_mem_repeated {count : Nat} {unit : List α} {member : α}
    (within : member ∈ repeated count unit) : member ∈ unit := by
  simp only [repeated_eq, List.mem_flatten, List.mem_replicate] at within
  obtain ⟨copy, ⟨_, same⟩, inside⟩ := within
  exact same ▸ inside

/-- What is done member by member may be done to one copy. -/
theorem flatMap_repeated {β : Type} (change : α → List β) (count : Nat) (unit : List α) :
    (repeated count unit).flatMap change = repeated count (unit.flatMap change) := by
  induction count with
  | zero => simp
  | succ count changed => simp [repeated_succ, List.flatMap_append, changed]

end Repeated

instance : Coe String Text := ⟨Text.ofString⟩

end Reindent
