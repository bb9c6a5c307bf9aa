import Mathlib.Data.List.Basic
import Reindent.Layout.Text
import Reindent.Proofs.Whitespace

/-!
Layout, code point by code point.

Layout reads bytes and knows nothing of code points.  Here the same transitions are made with the
code points of a text, and the trace of the encoded text is found to be the trace of the text with
each symbol encoded: what layout inserts or drops never comes between the bytes of one code point,
and an escape that skips one byte skips one code point.

Main statement: reindenting a text writes the trace of its code points (`reindent_eq`), and a line
break is all that it can fail at.
-/

namespace Reindent

theorem le_byteCode {byte : UInt8} {bound : Nat} (above : bound ≤ byte.toNat) :
    (bound : Int) ≤ byteCode byte :=
  Int.ofNat_le.mpr above

/-- How a symbol is written in a context. -/
def Mode.written (mode : Mode) (code : Int) : Piece :=
  match mode with
  | .normal => .echoed code
  | .string | .comment => .copied code

theorem Mode.written_of_copying {mode : Mode} (copying : mode ≠ .normal) (code : Int) :
    mode.written code = .copied code := by
  cases mode with
  | normal => exact absurd rfl copying
  | string => rfl
  | comment => rfl

theorem Mode.written_ne_lineBreak (mode : Mode) (code level : Int) :
    mode.written code ≠ .lineBreak level := by
  cases mode <;> exact Piece.noConfusion

namespace State

/-! ### One transition -/

section Transition

variable {state : State} {code : Int}

/-- Strings and comments are copied. -/
theorem told_of_copying (mode : state.mode ≠ .normal) : (state.next code).2 = [.copied code] := by
  cases context : state.mode with
  | normal => exact absurd context mode
  | string => rw [next_of_string context]; rfl
  | comment => rw [next_of_comment context]; rfl

/-- Outside strings and comments, whitespace is dropped. -/
theorem next_of_blank (mode : state.mode = .normal) (blank : Mark.ofCode code = .blank) :
    state.next code = (state, []) := by
  rw [next_of_normal mode]
  exact if_pos blank

/-- Any other symbol is written after the breaks that are due, and a colon has a space after it. -/
theorem next_of_visible (mode : state.mode = .normal) (visible : Mark.ofCode code ≠ .blank) :
    state.next code =
      (state.afterMark (Mark.ofCode code),
        state.closerBreak (Mark.ofCode code) ++ state.requestedBreak (Mark.ofCode code) ++
          [.echoed code] ++ if Mark.ofCode code = .colon then [.space] else []) := by
  rw [next_of_normal mode]
  exact if_neg visible

end Transition

/-! ### Transitions in a row -/

/-- The state after a text and all pieces told on the way, with one transition for each code
point. -/
def traceText (state : State) : Text → State × List Piece
  | [] => (state, [])
  | c :: rest =>
      let (after, pieces) := state.next c.code
      let (final, later) := after.traceText rest
      (final, pieces ++ later)

theorem traceText_cons (state : State) (c : CodePoint) (rest : Text) :
    state.traceText (c :: rest) =
      (((state.next c.code).1.traceText rest).1,
        (state.next c.code).2 ++ ((state.next c.code).1.traceText rest).2) := rfl

theorem traceText_append (state : State) (front back : Text) :
    state.traceText (front ++ back) =
      (((state.traceText front).1.traceText back).1,
        (state.traceText front).2 ++ ((state.traceText front).1.traceText back).2) := by
  induction front generalizing state with
  | nil => rfl
  | cons c rest later =>
      rw [List.cons_append, traceText_cons, later, traceText_cons, List.append_assoc]

/-! ### Symbols outside ASCII -/

/-- The state after a symbol that means nothing to layout. -/
def passed (state : State) : State :=
  match state.mode with
  | .normal => state.afterMark .ordinary
  | .string => { state with escapePending := false }
  | .comment => state

/-- The break that is due before a symbol that means nothing to layout. -/
def waiting (state : State) : List Piece :=
  match state.mode with
  | .normal => state.requestedBreak .ordinary
  | .string | .comment => []

/-- Outside ASCII no symbol means anything to layout. -/
theorem next_outside (state : State) {code : Int} (outside : 0x80 ≤ code) :
    state.next code = (state.passed, state.waiting ++ [state.mode.written code]) := by
  have other : ∀ symbol : Int, symbol < 0x80 → code ≠ symbol := by
    intro symbol ascii
    exact Int.ne_of_gt (Int.lt_of_lt_of_le ascii outside)
  obtain ⟨mode, escape, level, requested, opener⟩ := state
  cases mode with
  | normal =>
      simp [next, passed, waiting, Mode.written, nextInText, closerBreak,
        Mark.ofCode_eq_ordinary (.inr outside)]
  | string =>
      have unescaping : code ≠ Code.backslash := other Code.backslash (by decide)
      have unclosing : code ≠ Code.quote := other Code.quote (by decide)
      cases escape <;>
        simp [next, passed, waiting, Mode.written, nextInString, unescaping, unclosing]
  | comment =>
      have inside : code ≠ Code.newline := other Code.newline (by decide)
      simp [next, passed, waiting, Mode.written, nextInComment, inside]

@[simp] theorem mode_passed (state : State) : state.passed.mode = state.mode := by
  obtain ⟨mode, escape, level, requested, opener⟩ := state
  cases mode <;> rfl

@[simp] theorem passed_passed (state : State) : state.passed.passed = state.passed := by
  obtain ⟨mode, escape, level, requested, opener⟩ := state
  cases mode <;> rfl

@[simp] theorem waiting_passed (state : State) : state.passed.waiting = [] := by
  obtain ⟨mode, escape, level, requested, opener⟩ := state
  cases mode <;> rfl

/-- Once one such symbol has passed, more of them are only written. -/
theorem trace_passed (state : State) {bytes : Bytes}
    (outside : ∀ byte ∈ bytes, 0x80 ≤ byte.toNat) :
    state.passed.trace bytes =
      (state.passed, bytes.map fun byte => state.mode.written (byteCode byte)) := by
  induction bytes with
  | nil => rfl
  | cons byte rest later =>
      have above : 0x80 ≤ byteCode byte := le_byteCode (outside byte (List.mem_cons_self ..))
      have following := later fun other inside => outside other (List.mem_cons_of_mem byte inside)
      rw [trace_cons, next_outside _ above]
      simp [following]

/-! ### Encoding the pieces -/

/-- The breaks before a symbol are line breaks at its level. -/
theorem mem_breaks {state : State} {mark : Mark} {piece : Piece}
    (due : piece ∈ state.closerBreak mark ++ state.requestedBreak mark) :
    piece = .lineBreak (state.levelOf mark) := by
  unfold closerBreak requestedBreak at due
  rcases List.mem_append.mp due with due | due
  · split at due
    · exact List.mem_singleton.mp due
    · cases due
  · split at due
    · exact List.mem_singleton.mp due
    · cases due

/-- What a transition tells: a line break at the level of the symbol, a space, or the symbol. -/
theorem mem_next {state : State} {code : Int} {piece : Piece}
    (told : piece ∈ (state.next code).2) :
    piece = .lineBreak (state.levelOf (Mark.ofCode code)) ∨ piece = .space ∨
      piece = state.mode.written code := by
  by_cases mode : state.mode = .normal
  · by_cases blank : Mark.ofCode code = .blank
    · rw [next_of_blank mode blank] at told
      cases told
    · rw [next_of_visible mode blank] at told
      rcases List.mem_append.mp told with told | told
      · rcases List.mem_append.mp told with told | told
        · exact .inl (mem_breaks told)
        · rw [List.mem_singleton.mp told, mode]
          exact .inr (.inr rfl)
      · split at told
        · exact .inr (.inl (List.mem_singleton.mp told))
        · cases told
  · rw [told_of_copying mode] at told
    rw [List.mem_singleton.mp told, Mode.written_of_copying mode]
    exact .inr (.inr rfl)

end State

namespace Piece

/-- The pieces that tell the bytes of a symbol, for a piece that tells the symbol. -/
def encoded : Piece → List Piece
  | .lineBreak level => [.lineBreak level]
  | .copied code => (Utf8.bytesOf (.ofNat code.toNat)).map fun byte => .copied (byteCode byte)
  | .echoed code => (Utf8.bytesOf (.ofNat code.toNat)).map fun byte => .echoed (byteCode byte)
  | .space => [.space]

theorem encoded_written (mode : Mode) (c : CodePoint) :
    (mode.written c.code).encoded =
      (Utf8.bytesOf c).map fun byte => mode.written (byteCode byte) := by
  cases mode <;> simp [Mode.written, encoded, CodePoint.code]

end Piece

namespace State

/-- An ASCII symbol is told by the same piece either way. -/
theorem encoded_next_of_ascii (state : State) {c : CodePoint} (ascii : c.value < 0x80) :
    (state.next c.code).2.flatMap Piece.encoded = (state.next c.code).2 := by
  have same : ∀ piece ∈ (state.next c.code).2, piece.encoded = [piece] := by
    intro piece told
    rcases mem_next told with rfl | rfl | rfl
    · rfl
    · rfl
    · rw [Piece.encoded_written, Utf8.bytesOf_of_ascii ascii, List.map_singleton,
        byteCode_of_ascii ascii]
  rw [List.flatMap_congr same, List.flatMap_singleton']

/-- The bytes of one code point make one transition, told byte by byte. -/
theorem trace_bytesOf (state : State) (c : CodePoint) :
    state.trace (Utf8.bytesOf c) =
      ((state.next c.code).1, (state.next c.code).2.flatMap Piece.encoded) := by
  by_cases ascii : c.value < 0x80
  · rw [encoded_next_of_ascii state ascii, Utf8.bytesOf_of_ascii ascii, trace_cons,
      byteCode_of_ascii ascii]
    simp
  · have outside : ∀ byte ∈ Utf8.bytesOf c, 0x80 ≤ byte.toNat := fun byte member =>
      Utf8.outside_of_mem_bytesOf (by omega) member
    have above : (0x80 : Int) ≤ c.code := by
      simp only [CodePoint.code]
      omega
    obtain ⟨lead, trailing, whole⟩ := List.exists_cons_of_ne_nil (Utf8.bytesOf_ne_nil c)
    have spelled := Piece.encoded_written state.mode c
    rw [whole] at outside spelled ⊢
    have first : 0x80 ≤ byteCode lead := le_byteCode (outside lead (List.mem_cons_self ..))
    have breaks : state.waiting.flatMap Piece.encoded = state.waiting := by
      unfold waiting requestedBreak
      cases state.mode <;> simp only [List.flatMap_nil]
      split <;> rfl
    rw [trace_cons, next_outside state first, next_outside state above]
    simp only
    rw [trace_passed state fun byte inside => outside byte (List.mem_cons_of_mem lead inside),
      List.flatMap_append, breaks, List.flatMap_singleton, spelled]
    simp

/-- The trace of an encoded text is the trace of the text, encoded. -/
theorem trace_bytesOfText (state : State) (text : Text) :
    state.trace (Utf8.bytesOfText text) =
      ((state.traceText text).1, (state.traceText text).2.flatMap Piece.encoded) := by
  induction text generalizing state with
  | nil => rfl
  | cons c rest later =>
      rw [Utf8.bytesOfText_cons, trace_append, trace_bytesOf, later]
      simp [traceText]

/-- The pieces of a text are line breaks, spaces and the symbols of the text. -/
theorem mem_traceText {state : State} {text : Text} {piece : Piece}
    (told : piece ∈ (state.traceText text).2) :
    (∃ level, piece = .lineBreak level) ∨ piece = .space ∨
      ∃ mode : Mode, ∃ c ∈ text, piece = mode.written c.code := by
  induction text generalizing state with
  | nil => cases told
  | cons c rest later =>
      rcases List.mem_append.mp told with now | afterwards
      · rcases mem_next now with break_ | space | symbol
        · exact .inl ⟨_, break_⟩
        · exact .inr (.inl space)
        · exact .inr (.inr ⟨state.mode, c, List.mem_cons_self .., symbol⟩)
      · rcases later afterwards with break_ | space | ⟨mode, d, inside, symbol⟩
        · exact .inl break_
        · exact .inr (.inl space)
        · exact .inr (.inr ⟨mode, d, List.mem_cons_of_mem c inside, symbol⟩)

end State

/-! ### Writing the pieces -/

namespace Piece

/-- The text that a piece adds, with a unit. -/
def text (unit : Text) : Piece → Text
  | .lineBreak level => .ofChar '\n' :: repeated level.toNat unit
  | .copied code | .echoed code => [.ofNat code.toNat]
  | .space => [.ofChar ' ']

theorem text_written (unit : Text) (mode : Mode) (c : CodePoint) :
    (mode.written c.code).text unit = [c] := by
  cases mode <;> simp [Mode.written, text, CodePoint.code]

/-- Why the line break that a piece tells cannot be written. -/
def breakFault? (margin : Margin) : Piece → Option BreakError
  | .lineBreak level => margin.breakFault? level
  | .copied _ | .echoed _ | .space => none

/-- Encoded pieces are written as the encoding of what they add. -/
theorem bytes_encoded (margin : Margin) (piece : Piece) :
    piece.encoded.flatMap (bytes margin) =
      Utf8.bytesOfText (piece.text margin.indentation.unit) := by
  have newline : Utf8.bytesOf (.ofChar '\n') = [0x0A] := by decide
  have space : Utf8.bytesOf (.ofChar ' ') = [0x20] := by decide
  cases piece with
  | lineBreak level =>
      simp [encoded, bytes, text, Margin.breakBytes, Indentation.bytes_eq, Indentation.text,
        newline]
  | copied code => simp [encoded, bytes, text, List.flatMap_map]
  | echoed code => simp [encoded, bytes, text, List.flatMap_map]
  | space => simp [encoded, bytes, text, space]

/-- The bytes of a symbol are bytes, so only its line break can be a fault of an encoded piece. -/
theorem findSome?_encoded (margin : Margin) (piece : Piece) :
    piece.encoded.findSome? (fault? margin) =
      (piece.breakFault? margin).map StepError.lineBreak := by
  cases piece with
  | lineBreak level => simp [encoded, fault?, breakFault?]
  | copied code => simp [encoded, fault?, breakFault?, List.findSome?_eq_none_iff]
  | echoed code => simp [encoded, fault?, breakFault?, List.findSome?_eq_none_iff]
  | space => rfl

end Piece

/-- The first line break of a row of pieces that cannot be written, told by its fault. -/
def Margin.firstBreakFault? (margin : Margin) (pieces : List Piece) : Option BreakError :=
  pieces.findSome? (Piece.breakFault? margin)

/-- Encoded pieces are written as the encoding of what they add, or the first line break that cannot
be written is reported. -/
theorem Margin.write_encoded (margin : Margin) (pieces : List Piece) :
    margin.write (pieces.flatMap Piece.encoded) =
      match margin.firstBreakFault? pieces with
      | some error => .error (.lineBreak error)
      | none => .ok (Utf8.bytesOfText (pieces.flatMap (Piece.text margin.indentation.unit))) := by
  have fault : (pieces.flatMap Piece.encoded).findSome? (Piece.fault? margin) =
      (margin.firstBreakFault? pieces).map StepError.lineBreak := by
    unfold firstBreakFault?
    induction pieces with
    | nil => rfl
    | cons piece rest later =>
        rw [List.flatMap_cons, List.findSome?_append, Piece.findSome?_encoded, later,
          List.findSome?_cons]
        cases piece.breakFault? margin <;> rfl
  have written : (pieces.flatMap Piece.encoded).flatMap (Piece.bytes margin) =
      Utf8.bytesOfText (pieces.flatMap (Piece.text margin.indentation.unit)) := by
    rw [List.flatMap_assoc, Utf8.bytesOfText, List.flatMap_assoc]
    exact List.flatMap_congr fun piece _ => Piece.bytes_encoded margin piece
  unfold write
  rw [fault, written]
  cases margin.firstBreakFault? pieces <;> rfl

/-- A break that can be written adds no surrogates. -/
theorem Margin.encodable_of_breakFault? {margin : Margin} {level : Int}
    (fine : margin.breakFault? level = none) :
    Text.Encodable (repeated level.toNat margin.indentation.unit) := by
  unfold breakFault? at fine
  split at fine
  · cases fine
  · rw [Option.map_eq_none_iff, SurrogateRun.ofCopies?_eq] at fine
    exact SurrogateRun.find?_isSurrogate_eq_none.mp fine

/-- What the pieces of a text add can be encoded, if all breaks can be written. -/
theorem encodable_traceText {margin : Margin} {state : State} {text : Text}
    (encodable : text.Encodable)
    (fine : margin.firstBreakFault? (state.traceText text).2 = none) :
    Text.Encodable ((state.traceText text).2.flatMap (Piece.text margin.indentation.unit)) := by
  apply Text.Encodable.flatMap
  intro piece told
  have breakable := List.findSome?_eq_none_iff.mp fine piece told
  rcases State.mem_traceText told with ⟨level, rfl⟩ | rfl | ⟨mode, c, inside, rfl⟩
  · exact List.forall_mem_cons.mpr
      ⟨CodePoint.isSurrogate_ofChar _, margin.encodable_of_breakFault? breakable⟩
  · exact List.forall_mem_cons.mpr ⟨CodePoint.isSurrogate_ofChar _, Text.Encodable.nil⟩
  · rw [Piece.text_written]
    exact List.forall_mem_cons.mpr ⟨encodable c inside, Text.Encodable.nil⟩

/-- Reindenting a text writes the trace of its code points, or reports the first line break that
cannot be written. -/
theorem reindent_eq (margin : Margin) {text : Text} (encodable : text.Encodable) :
    reindent margin text =
      match margin.firstBreakFault? (State.initial.traceText text).2 with
      | some error => .error (.step (.lineBreak error))
      | none =>
          .ok ((State.initial.traceText text).2.flatMap (Piece.text margin.indentation.unit)) := by
  unfold reindent throughBytes
  rw [Utf8.encode_of_encodable encodable]
  simp only
  unfold reindentBytes
  rw [State.trace_bytesOfText, Margin.write_encoded]
  cases fault : margin.firstBreakFault? (State.initial.traceText text).2 with
  | some error => rfl
  | none =>
      simp only
      rw [Utf8.decode?_bytesOfText (encodable_traceText encodable fault)]

/-- Only a text that can be encoded is reindented. -/
theorem encodable_of_reindent {margin : Margin} {text output : Text}
    (returned : reindent margin text = .ok output) : text.Encodable := by
  unfold reindent throughBytes at returned
  cases encoded : Utf8.encode text with
  | error run =>
      rw [encoded] at returned
      cases returned
  | ok bytes => exact Utf8.encodable_of_encode encoded

/-- What is returned for a text is the trace of its code points, and all its breaks can be
written. -/
theorem written_of_reindent {margin : Margin} {text output : Text}
    (returned : reindent margin text = .ok output) :
    margin.firstBreakFault? (State.initial.traceText text).2 = none ∧
      output = (State.initial.traceText text).2.flatMap (Piece.text margin.indentation.unit) := by
  rw [reindent_eq margin (encodable_of_reindent returned)] at returned
  cases fault : margin.firstBreakFault? (State.initial.traceText text).2 with
  | some error =>
      rw [fault] at returned
      cases returned
  | none =>
      rw [fault] at returned
      cases returned
      exact ⟨rfl, rfl⟩

end Reindent
