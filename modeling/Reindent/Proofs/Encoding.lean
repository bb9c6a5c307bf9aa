import Mathlib.Data.List.TakeWhile
import Reindent.Text.Utf8

/-!
Encoding and decoding again.

A text without surrogates has an encoding, and strict decoding reads the text back from it.  The
bytes of a code point outside ASCII are all outside ASCII, so the symbols that layout knows are
never found within the encoding of another one.

Main statements: `decode?_bytesOfText` reads an encoded text back, and `find?_isSurrogate_eq_none`
says that surrogates are the only obstacle.
-/

namespace Reindent

/-- A text that can be encoded: it holds no surrogates. -/
def Text.Encodable (text : Text) : Prop := ∀ c ∈ text, c.isSurrogate = false

instance (text : Text) : Decidable text.Encodable :=
  inferInstanceAs (Decidable (∀ c ∈ text, c.isSurrogate = false))

namespace Text.Encodable

theorem nil : Text.Encodable [] := by
  intro c member
  cases member

theorem append {front back : Text} (first : Text.Encodable front) (second : Text.Encodable back) :
    Text.Encodable (front ++ back) := by
  intro c member
  rcases List.mem_append.mp member with inside | inside
  · exact first c inside
  · exact second c inside

theorem flatMap {α : Type} {row : List α} {change : α → Text}
    (each : ∀ member ∈ row, Text.Encodable (change member)) :
    Text.Encodable (row.flatMap change) := by
  intro c member
  obtain ⟨origin, inside, here⟩ := List.mem_flatMap.mp member
  exact each origin inside c here

end Text.Encodable

/-- Surrogates are what an encoding stops at, and nothing else is. -/
theorem SurrogateRun.find?_isSurrogate_eq_none {text : Text} :
    SurrogateRun.find? CodePoint.isSurrogate text = none ↔ text.Encodable := by
  constructor
  · intro nothing
    unfold SurrogateRun.find? at nothing
    split at nothing
    · rename_i passed
      intro c member
      have allowed := List.dropWhile_eq_nil_iff.mp passed c member
      simpa using allowed
    · cases nothing
  · exact SurrogateRun.find?_eq_none

/-! ### One code point -/

namespace Utf8

/-- The byte with a small number has that number; the bound is a numeral, so that `omega` meets
it. -/
theorem toNat_byte {value : Nat} (small : value < 0x100) : (UInt8.ofNat value).toNat = value :=
  UInt8.toNat_ofNat_of_lt' small

/-- A trailing byte adds its six bits. -/
theorem takeTrailing_trailing (count value bits : Nat) (rest : Bytes) :
    takeTrailing (count + 1) value (UInt8.ofNat (0x80 + bits % 0x40) :: rest) =
      takeTrailing count (value * 0x40 + bits % 0x40) rest := by
  have byte : (UInt8.ofNat (0x80 + bits % 0x40)).toNat = 0x80 + bits % 0x40 :=
    toNat_byte (by omega)
  rw [takeTrailing, byte, if_pos (by omega), Nat.add_sub_cancel_left]

/-- A code point is complete once its bits are read, if it is large enough and no surrogate. -/
theorem completeScalar_eq_some {count least high : Nat} {bytes rest : Bytes} {c : CodePoint}
    (taken : takeTrailing count high bytes = some (c.value, rest)) (large : least ≤ c.value)
    (scalar : c.isSurrogate = false) :
    completeScalar count least high bytes = some (c, rest) := by
  unfold completeScalar
  rw [taken]
  simp only
  rw [dif_pos c.value_lt, if_pos ⟨large, scalar⟩]

/-- Reading gives back the code point that was written, and leaves what follows it. -/
theorem takeScalar_bytesOf {c : CodePoint} (scalar : c.isSurrogate = false) (rest : Bytes) :
    takeScalar (bytesOf c ++ rest) = some (c, rest) := by
  have limit := c.value_lt
  unfold bytesOf
  -- One case for each length; the lead byte tells which.
  simp only
  split
  · rename_i one
    have lead : (UInt8.ofNat c.value).toNat = c.value := toNat_byte (by omega)
    simp only [List.cons_append, List.nil_append, takeScalar, lead]
    rw [if_pos one]
    exact completeScalar_eq_some rfl (Nat.zero_le _) scalar
  split
  · rename_i _ two
    have lead : (UInt8.ofNat (0xC0 + c.value / 0x40)).toNat = 0xC0 + c.value / 0x40 :=
      toNat_byte (by omega)
    simp only [List.cons_append, List.nil_append, takeScalar, lead]
    rw [if_neg (by omega), if_neg (by omega), if_pos (by omega)]
    refine completeScalar_eq_some ?_ (by omega) scalar
    rw [takeTrailing_trailing, takeTrailing]
    congr 2
    omega
  split
  · rename_i _ _ three
    have lead : (UInt8.ofNat (0xE0 + c.value / 0x1000)).toNat = 0xE0 + c.value / 0x1000 :=
      toNat_byte (by omega)
    simp only [List.cons_append, List.nil_append, takeScalar, lead]
    rw [if_neg (by omega), if_neg (by omega), if_neg (by omega), if_pos (by omega)]
    refine completeScalar_eq_some ?_ (by omega) scalar
    rw [takeTrailing_trailing, takeTrailing_trailing, takeTrailing]
    congr 2
    omega
  · rename_i _ _ four
    have lead : (UInt8.ofNat (0xF0 + c.value / 0x40000)).toNat = 0xF0 + c.value / 0x40000 :=
      toNat_byte (by omega)
    simp only [List.cons_append, List.nil_append, takeScalar, lead]
    rw [if_neg (by omega), if_neg (by omega), if_neg (by omega), if_neg (by omega),
      if_pos (by omega)]
    refine completeScalar_eq_some ?_ (by omega) scalar
    rw [takeTrailing_trailing, takeTrailing_trailing, takeTrailing_trailing, takeTrailing]
    congr 2
    omega

theorem bytesOf_ne_nil (c : CodePoint) : bytesOf c ≠ [] := by
  unfold bytesOf
  simp only
  repeat' split
  all_goals exact List.cons_ne_nil _ _

/-- An ASCII code point is its own byte. -/
theorem bytesOf_of_ascii {c : CodePoint} (ascii : c.value < 0x80) :
    bytesOf c = [UInt8.ofNat c.value] := by
  simp only [bytesOf]
  rw [if_pos ascii]

/-- Outside ASCII, no byte of a code point is ASCII. -/
theorem outside_of_mem_bytesOf {c : CodePoint} (outside : 0x80 ≤ c.value) {byte : UInt8}
    (member : byte ∈ bytesOf c) : 0x80 ≤ byte.toNat := by
  have limit := c.value_lt
  unfold bytesOf at member
  simp only at member
  rw [if_neg (by omega)] at member
  split at member
  · simp only [List.mem_cons, List.not_mem_nil, or_false] at member
    rcases member with rfl | rfl <;> rw [toNat_byte (by omega)] <;> omega
  split at member
  · simp only [List.mem_cons, List.not_mem_nil, or_false] at member
    rcases member with rfl | rfl | rfl <;> rw [toNat_byte (by omega)] <;> omega
  · simp only [List.mem_cons, List.not_mem_nil, or_false] at member
    rcases member with rfl | rfl | rfl | rfl <;> rw [toNat_byte (by omega)] <;> omega

/-! ### Texts -/

@[simp] theorem bytesOfText_nil : bytesOfText [] = [] := rfl

@[simp] theorem bytesOfText_cons (c : CodePoint) (rest : Text) :
    bytesOfText (c :: rest) = bytesOf c ++ bytesOfText rest := by
  simp [bytesOfText]

/-- A text is encoded code point by code point. -/
theorem encode_of_encodable {text : Text} (encodable : text.Encodable) :
    encode text = .ok (bytesOfText text) := by
  unfold encode
  rw [SurrogateRun.find?_isSurrogate_eq_none.mpr encodable]

theorem encodable_of_encode {text : Text} {bytes : Bytes} (encoded : encode text = .ok bytes) :
    text.Encodable := by
  unfold encode at encoded
  split at encoded
  · cases encoded
  · rename_i nothing
    exact SurrogateRun.find?_isSurrogate_eq_none.mp nothing

/-- The segments of an encoded text are its code points. -/
theorem segments_bytesOfText {text : Text} (encodable : text.Encodable) :
    segments (bytesOfText text) = text.map Segment.scalar := by
  induction text with
  | nil =>
      rw [bytesOfText_nil, segments]
      rfl
  | cons c rest later =>
      have scalar : c.isSurrogate = false := encodable c (List.mem_cons_self ..)
      have following := later fun d inside => encodable d (List.mem_cons_of_mem c inside)
      have taken := takeScalar_bytesOf scalar (bytesOfText rest)
      obtain ⟨lead, trailing, whole⟩ := List.exists_cons_of_ne_nil (bytesOf_ne_nil c)
      rw [whole, List.cons_append] at taken
      rw [bytesOfText_cons, whole, List.cons_append, segments]
      split
      · rename_i first remaining found
        rw [taken] at found
        cases found
        rw [following, List.map_cons]
      · rename_i stray
        rw [taken] at stray
        cases stray

/-- Strict decoding reads an encoded text back. -/
theorem decode?_bytesOfText {text : Text} (encodable : text.Encodable) :
    decode? (bytesOfText text) = some text := by
  unfold decode?
  rw [segments_bytesOfText encodable, List.mapM_map]
  have whole : text.mapM (fun c => some c) = some (text.map id) := List.mapM_pure
  rw [List.map_id] at whole
  exact whole

end Utf8

end Reindent
