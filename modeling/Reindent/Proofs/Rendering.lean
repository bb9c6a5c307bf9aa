import Reindent.Proofs.TextTrace

/-!
Runs whose line breaks can all be written.

The symbols of a byte sequence are bytes, so a run over it can fail at a line break only.  A margin
renders a byte sequence if it can write all line breaks that layout tells for it; exactly then the
run returns, and what it returns is told by the trace.

Main statement: `run_eq_ok_iff`.
-/

namespace Reindent

/-- The pieces of a byte sequence are line breaks, spaces and its bytes. -/
theorem State.mem_trace {state : State} {bytes : Bytes} {piece : Piece}
    (told : piece ∈ (state.trace bytes).2) :
    (∃ level, piece = .lineBreak level) ∨ piece = .space ∨
      ∃ mode : Mode, ∃ byte ∈ bytes, piece = mode.written (byteCode byte) := by
  induction bytes generalizing state with
  | nil => cases told
  | cons byte rest later =>
      rw [trace_cons] at told
      rcases List.mem_append.mp told with now | afterwards
      · rcases mem_next now with break_ | space | symbol
        · exact .inl ⟨_, break_⟩
        · exact .inr (.inl space)
        · exact .inr (.inr ⟨state.mode, byte, List.mem_cons_self .., symbol⟩)
      · rcases later afterwards with break_ | space | ⟨mode, other, inside, symbol⟩
        · exact .inl break_
        · exact .inr (.inl space)
        · exact .inr (.inr ⟨mode, other, List.mem_cons_of_mem byte inside, symbol⟩)

/-- No line break that layout tells for a byte sequence fails. -/
def Margin.Renders (margin : Margin) (state : State) (bytes : Bytes) : Prop :=
  ∀ level, .lineBreak level ∈ (state.trace bytes).2 → margin.breakFault? level = none

/-- Bytes can always be written. -/
theorem Piece.fault?_written (margin : Margin) (mode : Mode) (byte : UInt8) :
    (mode.written (byteCode byte)).fault? margin = none := by
  cases mode <;> simp [Mode.written, fault?]

/-- Line breaks are all that a run over bytes can fail at. -/
theorem Margin.findSome?_fault?_trace {margin : Margin} {state : State} {bytes : Bytes} :
    (state.trace bytes).2.findSome? (Piece.fault? margin) = none ↔ margin.Renders state bytes := by
  rw [List.findSome?_eq_none_iff]
  constructor
  · intro fine level told
    exact Option.map_eq_none_iff.mp (fine _ told)
  · intro renders piece told
    rcases State.mem_trace told with ⟨level, rfl⟩ | rfl | ⟨mode, byte, -, rfl⟩
    · exact Option.map_eq_none_iff.mpr (renders level told)
    · rfl
    · exact Piece.fault?_written margin mode byte

/-- A run returns exactly if all its line breaks can be written, and then it returns the state that
the trace ends in and the bytes of its pieces. -/
theorem run_eq_ok_iff {margin : Margin} {state final : State} {bytes written : Bytes} :
    run margin state bytes = .ok (final, written) ↔
      margin.Renders state bytes ∧ final = (state.trace bytes).1 ∧
        written = (state.trace bytes).2.flatMap (Piece.bytes margin) := by
  rw [← Margin.findSome?_fault?_trace]
  unfold run Margin.write
  simp only
  cases (state.trace bytes).2.findSome? (Piece.fault? margin) with
  | some error => simp
  | none => simp [eq_comm]

theorem run_of_renders {margin : Margin} {state : State} {bytes : Bytes}
    (renders : margin.Renders state bytes) :
    run margin state bytes =
      .ok ((state.trace bytes).1, (state.trace bytes).2.flatMap (Piece.bytes margin)) :=
  run_eq_ok_iff.mpr ⟨renders, rfl, rfl⟩

/-- A run over two parts in a row that returns has returned from the first part to the second. -/
theorem run_append_eq_ok {margin : Margin} {state final : State} {front back written : Bytes}
    (returned : run margin state (front ++ back) = .ok (final, written)) :
    ∃ middle first following, run margin state front = .ok (middle, first) ∧
      run margin middle back = .ok (final, following) ∧ written = first ++ following := by
  rw [run_append] at returned
  cases one : run margin state front with
  | error error =>
      rw [one] at returned
      cases returned
  | ok outcome =>
      obtain ⟨middle, first⟩ := outcome
      rw [one] at returned
      simp only at returned
      cases other : run margin middle back with
      | error error =>
          rw [other] at returned
          cases returned
      | ok outcome =>
          obtain ⟨reached, following⟩ := outcome
          rw [other] at returned
          cases returned
          exact ⟨middle, first, following, rfl, other, rfl⟩

end Reindent
