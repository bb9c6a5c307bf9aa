import Reindent.Layout.Trace
import Reindent.Margin

/-!
Writing what layout tells.

Pieces are written with a margin.  One that cannot be written is a fault; the first fault in a row
of pieces wins, so a line break that cannot be written is reported before a byte that is out of
range.  `step` writes the pieces of one transition and `run` those of a byte sequence.

Main statements: `write_append` determines the writing, `write_append_lineBreak` ties it to line
breaks that are appended to a buffer, and `run_nil`, `run_cons` and `run_append` determine `run`.
-/

namespace Reindent

/-- Why a transition fails. -/
inductive StepError where
  /-- A line break cannot be written. -/
  | lineBreak (error : BreakError)
  /-- The input of a string or comment is no byte. -/
  | copiedOutOfRange
  /-- The input of structural text is no byte. -/
  | echoedOutOfRange
deriving DecidableEq

/-- What a failed transition reports. -/
def StepError.message : StepError → Text
  | .lineBreak error => error.message
  | .copiedOutOfRange => "bytes must be in range(0, 256)"
  | .echoedOutOfRange => "byte must be in range(0, 256)"

/-- The byte with a given number. -/
def byteOfCode? (code : Int) : Option UInt8 :=
  if 0 ≤ code ∧ code < 256 then some (UInt8.ofNat code.toNat) else none

@[simp] theorem byteOfCode?_byteCode (byte : UInt8) : byteOfCode? (byteCode byte) = some byte := by
  have small := byte.toNat_lt
  have within : 0 ≤ byteCode byte ∧ byteCode byte < 256 := by
    simp only [byteCode]
    omega
  rw [byteOfCode?, if_pos within]
  simp [byteCode]

namespace Piece

/-- Why a piece cannot be written. -/
def fault? (margin : Margin) : Piece → Option StepError
  | .lineBreak level => (margin.breakFault? level).map StepError.lineBreak
  | .copied code => if (byteOfCode? code).isSome then none else some .copiedOutOfRange
  | .echoed code => if (byteOfCode? code).isSome then none else some .echoedOutOfRange
  | .space => none

/-- The bytes of a piece that can be written. -/
def bytes (margin : Margin) : Piece → Bytes
  | .lineBreak level => margin.breakBytes level
  | .copied code | .echoed code => (byteOfCode? code).toList
  | .space => [0x20]

end Piece

namespace Margin

/-- Write a row of pieces, or report the first fault. -/
def write (margin : Margin) (pieces : List Piece) : Except StepError Bytes :=
  match pieces.findSome? (Piece.fault? margin) with
  | some error => .error error
  | none => .ok (pieces.flatMap (Piece.bytes margin))

@[simp] theorem write_nil (margin : Margin) : margin.write [] = .ok [] := rfl

/-- Writing goes piece by piece. -/
theorem write_append (margin : Margin) (front back : List Piece) :
    margin.write (front ++ back) =
      match margin.write front with
      | .error error => .error error
      | .ok first =>
          match margin.write back with
          | .error error => .error error
          | .ok following => .ok (first ++ following) := by
  simp only [write, List.findSome?_append]
  cases front.findSome? (Piece.fault? margin) with
  | some error => rfl
  | none =>
      cases back.findSome? (Piece.fault? margin) with
      | some error => rfl
      | none => simp

/-- A line break is written as `lineBreak` makes it. -/
theorem write_lineBreak (margin : Margin) (level : Int) :
    margin.write [.lineBreak level] =
      match margin.lineBreak level with
      | .error error => .error (.lineBreak error)
      | .ok bytes => .ok bytes := by
  unfold write lineBreak
  cases fault : margin.breakFault? level with
  | some error => simp [Piece.fault?, fault]
  | none => simp [Piece.fault?, Piece.bytes, fault]

/-- To write a line break behind other pieces is to append it to what they have written. -/
theorem write_append_lineBreak {margin : Margin} {pieces : List Piece} {buffer : Bytes}
    (written : margin.write pieces = .ok buffer) (level : Int) :
    margin.write (pieces ++ [.lineBreak level]) =
      match margin.appendLineBreak buffer level with
      | (_, .error error) => .error (.lineBreak error)
      | (extended, .ok ()) => .ok extended := by
  rw [write_append, written, write_lineBreak, appendLineBreak]
  cases margin.lineBreak level <;> rfl

end Margin

/-- One transition: the next state and the bytes to write. -/
def step (margin : Margin) (state : State) (byte : Int) : Except StepError (State × Bytes) :=
  let (after, pieces) := state.next byte
  match margin.write pieces with
  | .error error => .error error
  | .ok written => .ok (after, written)

/-- The state after a byte sequence, and all that was written. -/
def run (margin : Margin) (state : State) (bytes : Bytes) : Except StepError (State × Bytes) :=
  let (final, pieces) := state.trace bytes
  match margin.write pieces with
  | .error error => .error error
  | .ok written => .ok (final, written)

/-- The output for a byte sequence that stands alone. -/
def reindentBytes (margin : Margin) (bytes : Bytes) : Except StepError Bytes :=
  margin.write (State.initial.trace bytes).2

@[simp] theorem run_nil (margin : Margin) (state : State) :
    run margin state [] = .ok (state, []) := rfl

/-- A run over two parts in a row is the run over the first and then the run over the second. -/
theorem run_append (margin : Margin) (state : State) (front back : Bytes) :
    run margin state (front ++ back) =
      match run margin state front with
      | .error error => .error error
      | .ok (middle, written) =>
          match run margin middle back with
          | .error error => .error error
          | .ok (final, following) => .ok (final, written ++ following) := by
  simp only [run, State.trace_append, Margin.write_append]
  cases margin.write (state.trace front).2 with
  | error error => rfl
  | ok written =>
      dsimp only
      cases margin.write ((state.trace front).1.trace back).2 <;> rfl

/-- A run is one transition and then the run of what remains. -/
theorem run_cons (margin : Margin) (state : State) (byte : UInt8) (rest : Bytes) :
    run margin state (byte :: rest) =
      match step margin state (byteCode byte) with
      | .error error => .error error
      | .ok (after, emitted) =>
          match run margin after rest with
          | .error error => .error error
          | .ok (final, following) => .ok (final, emitted ++ following) := by
  simp only [run, step, State.trace_cons, Margin.write_append]
  cases margin.write (state.next (byteCode byte)).2 with
  | error error => rfl
  | ok emitted =>
      dsimp only
      cases margin.write ((state.next (byteCode byte)).1.trace rest).2 <;> rfl

end Reindent
