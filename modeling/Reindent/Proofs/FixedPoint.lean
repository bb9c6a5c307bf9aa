import Reindent.Proofs.StreamContent
import Reindent.Proofs.TextTrace

/-!
Layout of what layout has written.

What one transition writes with a blank unit, read again from the same state, makes the same
transition: every break and every space after a colon falls where whitespace is dropped, and the
symbol is the one that was read.  So what layout has written has the trace of what it was read from,
pieces and states alike, and since a trace knows no unit, the second reading may use any other.

Main statements: `trace_written`, and `transfer_again` for streams.
-/

namespace Reindent

namespace State

/-- Outside strings and comments, whitespace changes nothing. -/
theorem trace_blank {state : State} (mode : state.mode = .normal) {row : Bytes}
    (blank : row.Blank) : state.trace row = (state, []) := by
  induction row with
  | nil => rfl
  | cons byte rest later =>
      obtain ⟨first, others⟩ := List.forall_mem_cons.mp blank
      rw [trace_cons, next_of_blank mode first, later others]
      rfl

theorem trace_singleton (state : State) (byte : UInt8) :
    state.trace [byte] = state.next (byteCode byte) := by
  rw [trace_cons, trace_nil, List.append_nil]

/-- The breaks before a symbol are written as whitespace. -/
theorem blank_breaks {margin : Margin} (blank : margin.indentation.isBlank = true) (state : State)
    (mark : Mark) :
    Bytes.Blank ((state.closerBreak mark ++ state.requestedBreak mark).flatMap
      (Piece.bytes margin)) := by
  intro byte member
  obtain ⟨piece, due, here⟩ := List.mem_flatMap.mp member
  rw [mem_breaks due] at here
  exact margin.blank_breakBytes blank _ byte here

/-- What one transition writes makes the same transition again. -/
theorem trace_written_next {margin : Margin} (blank : margin.indentation.isBlank = true)
    (state : State) (byte : UInt8) :
    state.trace ((state.next (byteCode byte)).2.flatMap (Piece.bytes margin)) =
      state.next (byteCode byte) := by
  have same : (byteOfCode? (byteCode byte)).toList = [byte] := by
    rw [byteOfCode?_byteCode]
    rfl
  by_cases mode : state.mode = .normal
  · by_cases dropped : byteMark byte = .blank
    · rw [next_of_blank mode dropped]
      rfl
    · -- The breaks are dropped, the symbol is read again, and the space is dropped after it.
      rw [next_of_visible mode dropped, List.flatMap_append, List.flatMap_append,
        List.flatMap_singleton, Piece.bytes, same, trace_append, trace_append,
        trace_blank mode (blank_breaks blank state _), trace_singleton,
        next_of_visible mode dropped]
      simp only [List.nil_append]
      by_cases colon : Mark.ofCode (byteCode byte) = .colon
      · have after : (state.afterMark (Mark.ofCode (byteCode byte))).mode = .normal := by
          rw [colon]
          rfl
        have space : Bytes.Blank [0x20] := by
          intro other member
          rw [List.mem_singleton.mp member]
          decide
        rw [if_pos colon, List.flatMap_singleton, Piece.bytes, trace_blank after space,
          List.append_nil]
      · rw [if_neg colon, List.flatMap_nil, trace_nil]
        simp only [List.append_nil]
  · rw [told_of_copying mode, List.flatMap_singleton, Piece.bytes, same, trace_singleton]

/-- What was written for a byte sequence has the trace of the byte sequence. -/
theorem trace_written {margin : Margin} (blank : margin.indentation.isBlank = true)
    (state : State) (bytes : Bytes) :
    state.trace ((state.trace bytes).2.flatMap (Piece.bytes margin)) = state.trace bytes := by
  induction bytes generalizing state with
  | nil => rfl
  | cons byte rest later =>
      rw [trace_cons, List.flatMap_append, trace_append, trace_written_next blank, later]

end State

theorem Margin.eq_of_write {margin : Margin} {pieces : List Piece} {written : Bytes}
    (done : margin.write pieces = .ok written) : written = pieces.flatMap (Piece.bytes margin) := by
  unfold write at done
  split at done
  · cases done
  · cases done
    rfl

/-- A run over what a run with a blank unit has written is the run over what that one read. -/
theorem run_again {first second : Margin} (blank : first.indentation.isBlank = true)
    {state final : State} {bytes written : Bytes}
    (returned : run first state bytes = .ok (final, written)) :
    run second state written = run second state bytes := by
  have told : written = (state.trace bytes).2.flatMap (Piece.bytes first) := by
    unfold run at returned
    simp only at returned
    cases done : first.write (state.trace bytes).2 with
    | error error =>
        rw [done] at returned
        cases returned
    | ok output =>
        rw [done] at returned
        cases returned
        exact first.eq_of_write done
  unfold run
  rw [told, State.trace_written blank]

theorem reindentBytes_eq_run (margin : Margin) (bytes : Bytes) :
    reindentBytes margin bytes =
      match run margin .initial bytes with
      | .error error => .error error
      | .ok (_, written) => .ok written := by
  unfold reindentBytes run
  simp only
  cases margin.write (State.initial.trace bytes).2 <;> rfl

/-- What is returned for a text is the text that the run over its bytes has written. -/
theorem run_of_reindent {margin : Margin} {text output : Text}
    (returned : reindent margin text = .ok output) :
    output.Encodable ∧ ∃ final, run margin .initial (Utf8.bytesOfText text) =
      .ok (final, Utf8.bytesOfText output) := by
  obtain ⟨fine, rfl⟩ := written_of_reindent returned
  constructor
  · exact encodable_traceText (encodable_of_reindent returned) fine
  · refine ⟨(State.initial.traceText text).1, ?_⟩
    unfold run
    rw [State.trace_bytesOfText]
    simp only
    rw [Margin.write_encoded, fine]

/-- A text that was reindented with a blank unit is reindented as what it was before. -/
theorem reindent_again {first second : Margin} (blank : first.indentation.isBlank = true)
    {text output : Text} (returned : reindent first text = .ok output) :
    reindent second output = reindent second text := by
  obtain ⟨encodable, final, written⟩ := run_of_reindent returned
  unfold reindent throughBytes
  rw [Utf8.encode_of_encodable encodable,
    Utf8.encode_of_encodable (encodable_of_reindent returned)]
  simp only
  rw [reindentBytes_eq_run, reindentBytes_eq_run, run_again blank written]

/-- Layout is independent of earlier layout.  What a transfer with a blank unit has written is
transferred, with any other unit, as what it was written for: with the same result, be it an output
or a failure, the same remarks, and the same state at the end.  The same holds of texts. -/
theorem transfer_again {first second : Margin} {source again : Source} {written : Bytes}
    (blank : first.indentation.isBlank = true)
    (returned : (transfer first {} source).result = .ok written)
    (fed : again.content = written) :
    (transfer second {} again).result = (transfer second {} source).result ∧
      (transfer second {} again).notes = (transfer second {} source).notes ∧
      run second .initial again.content = run second .initial source.content ∧
      ∀ text output, reindent first text = .ok output →
        reindent second output = reindent second text := by
  have same : run second .initial again.content = run second .initial source.content := by
    rw [transfer_result] at returned
    cases outcome : run first .initial source.content with
    | error error =>
        rw [outcome] at returned
        cases returned
    | ok reached =>
        obtain ⟨final, output⟩ := reached
        rw [outcome] at returned
        cases returned
        rw [fed]
        exact run_again blank outcome
  refine ⟨?_, ?_, same, ?_⟩
  · rw [transfer_result, transfer_result, same]
  · rw [transfer_notes, transfer_notes, same]
  · intro text output laid_out
    exact reindent_again blank laid_out

/-- Bytes that are no text, indented with tabs and then with a unit that cannot be encoded. -/
theorem transfer_again_of_stray_bytes :
    (Indentation.custom [.ofChar '\t']).isBlank = true ∧
      (transfer ⟨.custom [.ofChar '\t'], .ordinary⟩ {} [some [0x5B, 0xFF], some [0x3A]]).result =
        .ok [0x5B, 0x0A, 0x09, 0xFF, 0x3A, 0x20] ∧
      Source.content [some [0x5B, 0x0A], some [0x09, 0xFF, 0x3A, 0x20]] =
        [0x5B, 0x0A, 0x09, 0xFF, 0x3A, 0x20] ∧
      (transfer ⟨.custom [.ofNat 0xD800], .unbounded⟩ {}
          [some [0x5B, 0x0A], some [0x09, 0xFF, 0x3A, 0x20]]).result =
        (transfer ⟨.custom [.ofNat 0xD800], .unbounded⟩ {}
          [some [0x5B, 0xFF], some [0x3A]]).result := by
  have blank : (Indentation.custom [.ofChar '\t']).isBlank = true := by decide
  have returned : (transfer ⟨.custom [.ofChar '\t'], .ordinary⟩ {}
      [some [0x5B, 0xFF], some [0x3A]]).result = .ok [0x5B, 0x0A, 0x09, 0xFF, 0x3A, 0x20] := by
    rw [transfer_result]
    rfl
  exact ⟨blank, returned, rfl, (transfer_again blank returned rfl).1⟩

end Reindent
