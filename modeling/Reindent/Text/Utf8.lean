import Reindent.Text.SurrogateRun

/-!
UTF-8 between texts and bytes.

Encoding refuses surrogates and names the first run of them.  Decoding reads one well-formed
sequence after another.  Where none starts, the byte there is *stray*: strict decoding refuses it,
and escaping decoding turns it into the surrogate U+DC00 plus the byte, so that no byte is lost.

Main statements: a sequence that is read is never empty (`length_of_takeScalar`), which is why
decoding ends.
-/

namespace Reindent

namespace Utf8

/-- The bytes of one code point, one to four of them by its size.  Surrogates would fit the same
scheme; `encode` does not let them come here. -/
def bytesOf (c : CodePoint) : Bytes :=
  let value := c.value
  let trailing (bits : Nat) : UInt8 := UInt8.ofNat (0x80 + bits % 0x40)
  if value < 0x80 then
    [UInt8.ofNat value]
  else if value < 0x800 then
    [UInt8.ofNat (0xC0 + value / 0x40), trailing value]
  else if value < 0x10000 then
    [UInt8.ofNat (0xE0 + value / 0x1000), trailing (value / 0x40), trailing value]
  else
    [UInt8.ofNat (0xF0 + value / 0x40000), trailing (value / 0x1000), trailing (value / 0x40),
      trailing value]

/-- The bytes of a text, code point by code point. -/
def bytesOfText (text : Text) : Bytes := text.flatMap bytesOf

/-- Encode a text that holds no surrogates. -/
def encode (text : Text) : Except SurrogateRun Bytes :=
  match SurrogateRun.find? CodePoint.isSurrogate text with
  | some run => .error run
  | none => .ok (bytesOfText text)

/-- Read `count` trailing bytes, six bits each, below the bits read already. -/
def takeTrailing : (count : Nat) → (value : Nat) → Bytes → Option (Nat × Bytes)
  | 0, value, rest => some (value, rest)
  | _ + 1, _, [] => none
  | count + 1, value, byte :: rest =>
      if 0x80 ≤ byte.toNat ∧ byte.toNat < 0xC0 then
        takeTrailing count (value * 0x40 + (byte.toNat - 0x80)) rest
      else
        none

/-- The code point that `count` trailing bytes complete, if it needs that many and is no
surrogate. -/
def completeScalar (count least high : Nat) (rest : Bytes) : Option (CodePoint × Bytes) :=
  match takeTrailing count high rest with
  | none => none
  | some (value, rest) =>
      if fits : value < 0x110000 then
        if least ≤ value ∧ CodePoint.isSurrogate ⟨value, fits⟩ = false then
          some (⟨value, fits⟩, rest)
        else
          none
      else
        none

/-- Read one well-formed sequence. -/
def takeScalar : Bytes → Option (CodePoint × Bytes)
  | [] => none
  | lead :: rest =>
      let high := lead.toNat
      if high < 0x80 then completeScalar 0 0 high rest
      else if high < 0xC0 then none
      else if high < 0xE0 then completeScalar 1 0x80 (high - 0xC0) rest
      else if high < 0xF0 then completeScalar 2 0x800 (high - 0xE0) rest
      else if high < 0xF8 then completeScalar 3 0x10000 (high - 0xF0) rest
      else none

theorem length_of_takeTrailing {count value : Nat} {bytes : Bytes} {result : Nat × Bytes}
    (taken : takeTrailing count value bytes = some result) :
    result.2.length ≤ bytes.length := by
  fun_induction takeTrailing count value bytes with
  | case1 =>
      cases taken
      exact Nat.le_refl _
  | case2 => cases taken
  | case3 _ _ _ _ _ step =>
      have shorter := step taken
      simp only [List.length_cons]
      omega
  | case4 => cases taken

theorem length_of_completeScalar {count least high : Nat} {bytes : Bytes}
    {result : CodePoint × Bytes} (completed : completeScalar count least high bytes = some result) :
    result.2.length ≤ bytes.length := by
  unfold completeScalar at completed
  split at completed
  · cases completed
  · rename_i value rest taken
    have shorter := length_of_takeTrailing taken
    split at completed
    · split at completed
      · cases completed
        exact shorter
      · cases completed
    · cases completed

/-- A sequence has at least one byte. -/
theorem length_of_takeScalar {bytes : Bytes} {result : CodePoint × Bytes}
    (taken : takeScalar bytes = some result) : result.2.length < bytes.length := by
  cases bytes with
  | nil => cases taken
  | cons lead rest =>
      have shorter : result.2.length ≤ rest.length := by
        simp only [takeScalar] at taken
        split at taken
        · exact length_of_completeScalar taken
        · split at taken
          · cases taken
          · split at taken
            · exact length_of_completeScalar taken
            · split at taken
              · exact length_of_completeScalar taken
              · split at taken
                · exact length_of_completeScalar taken
                · cases taken
      exact Nat.lt_succ_of_le shorter

/-- What stands at one place of a byte sequence. -/
inductive Segment where
  | scalar (c : CodePoint)
  | stray (byte : UInt8)
deriving DecidableEq

/-- Cut bytes into well-formed sequences and stray bytes. -/
def segments : Bytes → List Segment
  | [] => []
  | byte :: rest =>
      match _taken : takeScalar (byte :: rest) with
      | some (c, remaining) => .scalar c :: segments remaining
      | none => .stray byte :: segments rest
termination_by bytes => bytes.length
decreasing_by
  · exact length_of_takeScalar _taken
  · simp

/-- The code point of a segment, if it is well formed. -/
def Segment.scalar? : Segment → Option CodePoint
  | .scalar c => some c
  | .stray _ => none

/-- A stray byte stands for itself as a surrogate in the range U+DC80 to U+DCFF. -/
def Segment.escaped : Segment → CodePoint
  | .scalar c => c
  | .stray byte => CodePoint.ofNat (0xDC00 + byte.toNat)

/-- Strict decoding. -/
def decode? (bytes : Bytes) : Option Text :=
  (segments bytes).mapM Segment.scalar?

/-- Escaping decoding, which succeeds on all bytes. -/
def decodeEscaped (bytes : Bytes) : Text :=
  (segments bytes).map Segment.escaped

/-- The byte that a code point stands for under escaping decoding. -/
def strayByte? (c : CodePoint) : Option UInt8 :=
  if 0xDC80 ≤ c.value ∧ c.value ≤ 0xDCFF then some (UInt8.ofNat (c.value - 0xDC00)) else none

/-- Escaping encoding: a surrogate that stands for a stray byte becomes this byte, and all other
surrogates are refused. -/
def encodeEscaped (text : Text) : Except SurrogateRun Bytes :=
  match SurrogateRun.find? (fun c => c.isSurrogate && (strayByte? c).isNone) text with
  | some run => .error run
  | none =>
      .ok (text.flatMap fun c =>
        match strayByte? c with
        | some byte => [byte]
        | none => bytesOf c)

end Utf8

end Reindent
