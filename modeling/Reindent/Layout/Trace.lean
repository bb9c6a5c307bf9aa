import Reindent.Layout.State

/-!
What layout tells about a byte sequence, before any unit is chosen.

The trace of a byte sequence is the state that layout ends in and all pieces that it tells on the
way.  Neither depends on how line breaks are rendered.

Main statements: `trace_nil`, `trace_cons` and `trace_append` determine the trace.
-/

namespace Reindent.State

/-- Layout of a byte sequence; `told` holds, in reverse, the pieces told before. -/
def traceFrom (state : State) (told : List Piece) : Bytes → State × List Piece
  | [] => (state, told.reverse)
  | byte :: rest =>
      let (after, pieces) := state.next (byteCode byte)
      after.traceFrom (pieces.reverseAux told) rest

/-- The state after a byte sequence, and all pieces told on the way. -/
def trace (state : State) (bytes : Bytes) : State × List Piece := state.traceFrom [] bytes

/-- What was told before only stands in front. -/
theorem traceFrom_eq (state : State) (told : List Piece) (bytes : Bytes) :
    state.traceFrom told bytes =
      ((state.trace bytes).1, told.reverse ++ (state.trace bytes).2) := by
  induction bytes generalizing state told with
  | nil => simp [trace, traceFrom]
  | cons byte rest later =>
      simp only [trace, traceFrom]
      rw [later, later]
      simp [List.reverseAux_eq]

@[simp] theorem trace_nil (state : State) : state.trace [] = (state, []) := rfl

/-- A trace is one transition and then the trace of what remains. -/
theorem trace_cons (state : State) (byte : UInt8) (rest : Bytes) :
    state.trace (byte :: rest) =
      (((state.next (byteCode byte)).1.trace rest).1,
        (state.next (byteCode byte)).2 ++ ((state.next (byteCode byte)).1.trace rest).2) := by
  simp only [trace, traceFrom]
  rw [traceFrom_eq]
  simp [trace, List.reverseAux_eq]

/-- The trace of two parts in a row is the trace of the first and then the trace of the second. -/
theorem trace_append (state : State) (front back : Bytes) :
    state.trace (front ++ back) =
      (((state.trace front).1.trace back).1,
        (state.trace front).2 ++ ((state.trace front).1.trace back).2) := by
  induction front generalizing state with
  | nil => simp
  | cons byte rest later => simp [trace_cons, later]

end Reindent.State
