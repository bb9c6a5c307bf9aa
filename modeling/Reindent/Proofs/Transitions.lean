import Reindent.Proofs.TextTrace

/-!
One transition, from every state and for every number.

Runs only meet consistent states and bytes, but a transition is made from any state and for any
number.  Two places of a transition can tell a line break, and never both do: one is for closers
that nothing has requested a break before, the other for requested breaks.  So a transition tells
one line break or none, then its symbol, and the first of these that cannot be written is its fault.

Main statement: when a transition fails and why, and what it writes otherwise (`step_outcome`).
-/

namespace Reindent

/-! ### Symbols by number -/

namespace Code

/-- The numbers of raw whitespace. -/
def blanks : List Int := [0x20, 0x09, 0x0A, 0x0D, 0x0B, 0x0C]

/-- The numbers of the closing bracket and brace. -/
def closers : List Int := [0x5D, 0x7D]

/-- The number of the colon. -/
abbrev colon : Int := 0x3A

end Code

namespace Mark

variable {code : Int}

theorem ofCode_eq_blank_iff : ofCode code = .blank ↔ code ∈ Code.blanks := by
  have row : code ∈ Code.blanks ↔ code = 0x20 ∨ (0x09 ≤ code ∧ code ≤ 0x0D) := by
    simp only [Code.blanks, List.mem_cons, List.not_mem_nil, or_false]
    omega
  rw [row]
  grind [ofCode]

theorem ofCode_eq_closer_iff : ofCode code = .closer ↔ code ∈ Code.closers := by
  grind [ofCode, Code.closers]

theorem ofCode_eq_colon_iff : ofCode code = .colon ↔ code = Code.colon := by
  grind [ofCode]

end Mark

/-! ### What a transition tells -/

namespace State

/-- A line break is due before a symbol: a closer needs one unless its container is empty, and any
other symbol needs one if it was requested. -/
def BreakDue (state : State) (code : Int) : Prop :=
  state.mode = .normal ∧ code ∉ Code.blanks ∧
    (code ∈ Code.closers ∧ ¬(state.breakPending = true ∧ state.openerPending = true) ∨
      code ∉ Code.closers ∧ state.breakPending = true)

instance (state : State) (code : Int) : Decidable (state.BreakDue code) :=
  inferInstanceAs (Decidable (_ ∧ _ ∧ (_ ∨ _)))

/-- The level of the line break that is due before a symbol. -/
def breakLevel (state : State) (code : Int) : Int :=
  if code ∈ Code.closers then max (state.level - 1) 0 else state.level

/-- The line break that is due before a symbol, if any. -/
def dueBreak (state : State) (code : Int) : List Piece :=
  if state.BreakDue code then [.lineBreak (state.breakLevel code)] else []

/-- The symbol itself, if it is not dropped, and the space after it, if it has one. -/
def toldSymbol (state : State) (code : Int) : List Piece :=
  if state.mode = .normal ∧ code ∈ Code.blanks then []
  else
    state.mode.written code :: if state.mode = .normal ∧ code = Code.colon then [.space] else []

theorem levelOf_ofCode (state : State) (code : Int) :
    state.levelOf (Mark.ofCode code) = state.breakLevel code := by
  simp only [levelOf, breakLevel, Mark.ofCode_eq_closer_iff]

/-- At most one of the two places that can tell a line break does. -/
theorem breaks_eq_dueBreak {state : State} {code : Int} (normal : state.mode = .normal)
    (visible : code ∉ Code.blanks) :
    state.closerBreak (Mark.ofCode code) ++ state.requestedBreak (Mark.ofCode code) =
      state.dueBreak code := by
  simp only [closerBreak, requestedBreak, dueBreak, levelOf_ofCode, Mark.ofCode_eq_closer_iff,
    BreakDue, normal, visible, true_and, not_false_eq_true]
  by_cases closer : code ∈ Code.closers <;> cases state.breakPending <;>
    cases state.openerPending <;> simp [closer]

/-- A transition tells the line break that is due and then its symbol. -/
theorem told_next (state : State) (code : Int) :
    (state.next code).2 = state.dueBreak code ++ state.toldSymbol code := by
  by_cases normal : state.mode = .normal
  · by_cases blank : code ∈ Code.blanks
    · rw [next_of_blank normal (Mark.ofCode_eq_blank_iff.mpr blank)]
      simp [dueBreak, toldSymbol, BreakDue, normal, blank]
    · have visible : Mark.ofCode code ≠ .blank := fun same =>
        blank (Mark.ofCode_eq_blank_iff.mp same)
      rw [next_of_visible normal visible]
      simp only [breaks_eq_dueBreak normal blank, Mark.ofCode_eq_colon_iff, toldSymbol, normal,
        blank, and_false, if_false, true_and, Mode.written, List.append_assoc,
        List.singleton_append]
  · rw [told_of_copying normal]
    simp [dueBreak, toldSymbol, BreakDue, normal, Mode.written_of_copying normal]

end State

/-! ### What a transition writes -/

/-- What a transition reports of a number that is no byte. -/
def Mode.rangeError : Mode → StepError
  | .normal => .echoedOutOfRange
  | .string | .comment => .copiedOutOfRange

theorem Mode.rangeError_ne_lineBreak (mode : Mode) (error : BreakError) :
    mode.rangeError ≠ .lineBreak error := by
  cases mode <;> exact StepError.noConfusion

/-- The bytes of a transition: nothing for whitespace that is dropped, and else a newline and an
indentation if a line break is due, the byte, and a space after a colon. -/
def State.emitted (indentation : Indentation) (state : State) (code : Int) : Bytes :=
  if state.mode = .normal ∧ code ∈ Code.blanks then []
  else
    (if state.BreakDue code then
        0x0A :: Utf8.bytesOfText (indentation.text (state.breakLevel code))
      else []) ++
      UInt8.ofNat code.toNat :: if state.mode = .normal ∧ code = Code.colon then [0x20] else []

section Written

variable {margin : Margin} {state : State} {code : Int}

/-- The line break that is due, if one is, is written as `lineBreak` makes it. -/
theorem write_dueBreak :
    margin.write (state.dueBreak code) =
      if state.BreakDue code then
        match margin.lineBreak (state.breakLevel code) with
        | .error error => .error (.lineBreak error)
        | .ok bytes => .ok bytes
      else .ok [] := by
  unfold State.dueBreak
  split
  · exact margin.write_lineBreak (state.breakLevel code)
  · rfl

/-- Whitespace that is dropped is a byte all the same. -/
theorem byte_of_mem_blanks (blank : code ∈ Code.blanks) : 0 ≤ code ∧ code ≤ 255 := by
  have all : ∀ code ∈ Code.blanks, 0 ≤ code ∧ code ≤ 255 := by decide
  exact all code blank

theorem write_symbol_of_not_byte (outside : ¬(0 ≤ code ∧ code ≤ 255)) :
    margin.write (state.toldSymbol code) = .error state.mode.rangeError := by
  have visible : ¬(state.mode = .normal ∧ code ∈ Code.blanks) := fun dropped =>
    outside (byte_of_mem_blanks dropped.2)
  have no_byte : byteOfCode? code = none := if_neg (by omega)
  have fault : (state.mode.written code).fault? margin = some state.mode.rangeError := by
    cases state.mode <;> simp [Mode.written, Piece.fault?, no_byte, Mode.rangeError]
  rw [State.toldSymbol, if_neg visible]
  simp [Margin.write, fault]

theorem write_symbol_of_byte (byte : 0 ≤ code ∧ code ≤ 255) :
    margin.write (state.toldSymbol code) =
      .ok (if state.mode = .normal ∧ code ∈ Code.blanks then []
        else UInt8.ofNat code.toNat ::
          if state.mode = .normal ∧ code = Code.colon then [0x20] else []) := by
  have a_byte : byteOfCode? code = some (UInt8.ofNat code.toNat) := if_pos (by omega)
  unfold State.toldSymbol
  split
  · rfl
  · have symbol : margin.write [state.mode.written code] = .ok [UInt8.ofNat code.toNat] := by
      cases state.mode <;> simp [Margin.write, Mode.written, Piece.fault?, Piece.bytes, a_byte]
    have space :
        margin.write (if state.mode = .normal ∧ code = Code.colon then [.space] else []) =
          .ok (if state.mode = .normal ∧ code = Code.colon then [0x20] else []) := by
      split <;> rfl
    rw [← List.singleton_append, Margin.write_append, symbol, space]
    rfl

/-- A transition writes the line break that is due and then its symbol. -/
theorem step_eq_write :
    step margin state code =
      match margin.write (state.dueBreak code) with
      | .error error => .error error
      | .ok broken =>
          match margin.write (state.toldSymbol code) with
          | .error error => .error error
          | .ok written => .ok ((state.next code).1, broken ++ written) := by
  unfold step
  simp only [State.told_next, Margin.write_append]
  cases margin.write (state.dueBreak code) with
  | error error => rfl
  | ok broken => cases margin.write (state.toldSymbol code) <;> rfl

/-- A line break that cannot be made is reported, whatever its symbol is. -/
theorem step_of_failed {error : BreakError} (due : state.BreakDue code)
    (failed : margin.lineBreak (state.breakLevel code) = .error error) :
    step margin state code = .error (.lineBreak error) := by
  rw [step_eq_write, write_dueBreak, if_pos due, failed]

/-- The line break that is due can be made, if one is due. -/
def Margin.BreaksLine (margin : Margin) (state : State) (code : Int) : Prop :=
  state.BreakDue code → ∃ bytes, margin.lineBreak (state.breakLevel code) = .ok bytes

/-- A number that is no byte is reported if no line break is. -/
theorem step_of_not_byte (breaks : margin.BreaksLine state code)
    (outside : ¬(0 ≤ code ∧ code ≤ 255)) :
    step margin state code = .error state.mode.rangeError := by
  rw [step_eq_write, write_dueBreak, write_symbol_of_not_byte outside]
  by_cases due : state.BreakDue code
  · obtain ⟨bytes, made⟩ := breaks due
    rw [if_pos due, made]
  · rw [if_neg due]

/-- Otherwise the transition returns, with the bytes of the line break that is due and of its
symbol. -/
theorem step_of_byte (breaks : margin.BreaksLine state code) (byte : 0 ≤ code ∧ code ≤ 255) :
    step margin state code = .ok ((state.next code).1, state.emitted margin.indentation code) := by
  rw [step_eq_write, write_dueBreak, write_symbol_of_byte byte, State.emitted]
  by_cases due : state.BreakDue code
  · have visible : ¬(state.mode = .normal ∧ code ∈ Code.blanks) := fun dropped =>
      due.2.1 dropped.2
    obtain ⟨bytes, made⟩ := breaks due
    have rendering := Margin.eq_of_lineBreak made
    simp only [if_pos due, made, if_neg visible, rendering]
  · simp only [if_neg due, List.nil_append]

/-- A transition either reports its line break, or has none that cannot be made. -/
theorem step_cases (margin : Margin) (state : State) (code : Int) :
    (∃ error, state.BreakDue code ∧ margin.lineBreak (state.breakLevel code) = .error error ∧
        step margin state code = .error (.lineBreak error)) ∨
      margin.BreaksLine state code := by
  by_cases due : state.BreakDue code
  · cases made : margin.lineBreak (state.breakLevel code) with
    | error error => exact .inl ⟨error, due, rfl, step_of_failed due made⟩
    | ok bytes => exact .inr fun _ => ⟨bytes, made⟩
  · exact .inr fun also => absurd also due

theorem step_eq_lineBreak_iff {error : BreakError} :
    step margin state code = .error (.lineBreak error) ↔
      state.BreakDue code ∧ margin.lineBreak (state.breakLevel code) = .error error := by
  constructor
  · intro reported
    rcases step_cases margin state code with ⟨cause, due, failed, same⟩ | breaks
    · rw [same] at reported
      cases reported
      exact ⟨due, failed⟩
    · by_cases byte : 0 ≤ code ∧ code ≤ 255
      · rw [step_of_byte breaks byte] at reported
        cases reported
      · rw [step_of_not_byte breaks byte, Except.error.injEq] at reported
        exact absurd reported (state.mode.rangeError_ne_lineBreak error)
  · rintro ⟨due, failed⟩
    exact step_of_failed due failed

theorem step_eq_rangeError_iff :
    step margin state code = .error state.mode.rangeError ↔
      margin.BreaksLine state code ∧ ¬(0 ≤ code ∧ code ≤ 255) := by
  constructor
  · intro reported
    rcases step_cases margin state code with ⟨cause, due, failed, same⟩ | breaks
    · rw [same, Except.error.injEq] at reported
      exact absurd reported.symm (state.mode.rangeError_ne_lineBreak cause)
    · refine ⟨breaks, fun byte => ?_⟩
      rw [step_of_byte breaks byte] at reported
      cases reported
  · rintro ⟨breaks, outside⟩
    exact step_of_not_byte breaks outside

/-- Margins that agree on the line break that is due agree on the transition. -/
theorem step_congr {other : Margin}
    (same : state.BreakDue code →
      margin.lineBreak (state.breakLevel code) = other.lineBreak (state.breakLevel code)) :
    step margin state code = step other state code := by
  have symbol : margin.write (state.toldSymbol code) = other.write (state.toldSymbol code) := by
    by_cases byte : 0 ≤ code ∧ code ≤ 255
    · rw [write_symbol_of_byte byte, write_symbol_of_byte byte]
    · rw [write_symbol_of_not_byte byte, write_symbol_of_not_byte byte]
  rw [step_eq_write, step_eq_write, symbol, write_dueBreak, write_dueBreak]
  by_cases due : state.BreakDue code
  · rw [if_pos due, if_pos due, same due]
  · rw [if_neg due, if_neg due]

end Written

/-! ### Line breaks where lengths are counted -/

/-- A level that is within the 64-bit range, as is the length of its indentation. -/
def Indentation.Countable (indentation : Indentation) (level : Int) : Prop :=
  LevelInRange level ∧ (indentation.text level).length < 0x8000000000000000

namespace Margin

variable {indentation : Indentation} {level : Int}

/-- With room for every length that can be counted, the level is looked at first and then the
length. -/
theorem render_countable :
    render ⟨indentation, .countable⟩ level =
      if LevelInRange level then
        if (indentation.text level).length < 0x8000000000000000 then .ok (indentation.text level)
        else .error .uncountable
      else .error .levelOutOfRange := by
  unfold render renderFault?
  by_cases within : LevelInRange level
  · by_cases grounded : level ≤ 0
    · have nothing : (indentation.text level).length < 0x8000000000000000 := by
        rw [indentation.length_text, Int.toNat_of_nonpos grounded, Nat.zero_mul]
        decide
      simp only [if_pos within, if_pos grounded, if_pos nothing]
    · simp only [if_pos within, if_neg grounded, ← indentation.length_text, Memory.countable,
        Memory.fault?]
      by_cases short : (indentation.text level).length < 0x8000000000000000
      · have room : ¬0x7FFFFFFFFFFFFFFF < (indentation.text level).length := by omega
        rw [if_neg (Nat.not_le.mpr short), if_neg room, if_pos short]
      · rw [if_pos (Nat.not_lt.mp short), if_neg short]
  · simp only [if_neg within]

/-- What is left to look at is whether the rendering can be encoded. -/
theorem lineBreak_countable :
    lineBreak ⟨indentation, .countable⟩ level =
      if LevelInRange level then
        if (indentation.text level).length < 0x8000000000000000 then
          match SurrogateRun.find? CodePoint.isSurrogate (indentation.text level) with
          | some run => .error (.unencodable run)
          | none => .ok (0x0A :: Utf8.bytesOfText (indentation.text level))
        else .error .uncountable
      else .error .levelOutOfRange := by
  rw [lineBreak_eq, render_countable]
  by_cases within : LevelInRange level
  · by_cases short : (indentation.text level).length < 0x8000000000000000
    · simp only [if_pos within, if_pos short, Utf8.encode]
      cases SurrogateRun.find? CodePoint.isSurrogate (indentation.text level) <;> rfl
    · simp only [if_pos within, if_neg short]
  · simp only [if_neg within]

/-- So a line break fails for the first of three reasons that applies. -/
theorem lineBreak_outcome (indentation : Indentation) (level : Int) :
    (lineBreak ⟨indentation, .countable⟩ level = .error .levelOutOfRange ↔
        ¬LevelInRange level) ∧
      (lineBreak ⟨indentation, .countable⟩ level = .error .uncountable ↔
        LevelInRange level ∧ 0x8000000000000000 ≤ (indentation.text level).length) ∧
      ((∃ run, lineBreak ⟨indentation, .countable⟩ level = .error (.unencodable run)) ↔
        indentation.Countable level ∧ ¬(indentation.text level).Encodable) ∧
      ((∃ bytes, lineBreak ⟨indentation, .countable⟩ level = .ok bytes) ↔
        indentation.Countable level ∧ (indentation.text level).Encodable) := by
  rw [lineBreak_countable, ← SurrogateRun.find?_isSurrogate_eq_none, Indentation.Countable]
  by_cases within : LevelInRange level
  · by_cases short : (indentation.text level).length < 0x8000000000000000
    · cases SurrogateRun.find? CodePoint.isSurrogate (indentation.text level) <;>
        simp [within, short]
    · simp [within, short, Nat.not_lt.mp short]
  · simp [within]

/-- A machine with less memory makes the same line breaks as long as there is room for them. -/
theorem lineBreak_of_room {longest : Nat}
    (room : indentation.Countable level → (indentation.text level).length ≤ longest) :
    lineBreak ⟨indentation, .bounded longest⟩ level =
      lineBreak ⟨indentation, .countable⟩ level := by
  have rendered : renderFault? ⟨indentation, .bounded longest⟩ level =
      renderFault? ⟨indentation, .countable⟩ level := by
    unfold renderFault?
    by_cases within : LevelInRange level
    · simp only [if_pos within, ← indentation.length_text, Memory.countable, Memory.fault?]
      by_cases long : 0x8000000000000000 ≤ (indentation.text level).length
      · simp only [if_pos long]
      · have enough := room ⟨within, Nat.not_le.mp long⟩
        have counted : ¬0x7FFFFFFFFFFFFFFF < (indentation.text level).length := by omega
        simp only [if_neg long, if_neg counted, if_neg (Nat.not_lt.mpr enough)]
    · simp only [if_neg within]
  unfold lineBreak breakFault?
  rw [rendered]
  rfl

end Margin

/-- With room for every length that can be counted, a transition fails for the first of four reasons
that applies: a line break is due at a level that is out of range, one is due whose indentation is
longer than can be counted, one is due whose indentation holds surrogates, or the symbol is no byte.
Where none applies it returns, and its bytes are those of the one line break that is due, of the
symbol and of the space after a colon.  With less memory, but room for the line break that is due,
the same happens. -/
theorem step_outcome (indentation : Indentation) (state : State) (code : Int) :
    (step ⟨indentation, .countable⟩ state code = .error (.lineBreak .levelOutOfRange) ↔
        state.BreakDue code ∧ ¬LevelInRange (state.breakLevel code)) ∧
      (step ⟨indentation, .countable⟩ state code = .error (.lineBreak .uncountable) ↔
        state.BreakDue code ∧ LevelInRange (state.breakLevel code) ∧
          0x8000000000000000 ≤ (indentation.text (state.breakLevel code)).length) ∧
      ((∃ run, step ⟨indentation, .countable⟩ state code =
          .error (.lineBreak (.unencodable run))) ↔
        state.BreakDue code ∧ indentation.Countable (state.breakLevel code) ∧
          ¬(indentation.text (state.breakLevel code)).Encodable) ∧
      (step ⟨indentation, .countable⟩ state code = .error state.mode.rangeError ↔
        (state.BreakDue code → indentation.Countable (state.breakLevel code) ∧
          (indentation.text (state.breakLevel code)).Encodable) ∧
        ¬(0 ≤ code ∧ code ≤ 255)) ∧
      ((state.BreakDue code → indentation.Countable (state.breakLevel code) ∧
          (indentation.text (state.breakLevel code)).Encodable) →
        0 ≤ code ∧ code ≤ 255 →
          step ⟨indentation, .countable⟩ state code =
            .ok ((state.next code).1, state.emitted indentation code)) ∧
      ∀ longest : Nat,
        (state.BreakDue code → indentation.Countable (state.breakLevel code) →
          (indentation.text (state.breakLevel code)).length ≤ longest) →
        step ⟨indentation, .bounded longest⟩ state code =
          step ⟨indentation, .countable⟩ state code := by
  obtain ⟨beyond, long, broken, made⟩ :=
    Margin.lineBreak_outcome indentation (state.breakLevel code)
  refine ⟨?_, ?_, ?_, ?_, ?_, ?_⟩
  · rw [step_eq_lineBreak_iff, beyond]
  · rw [step_eq_lineBreak_iff, long]
  · simp only [step_eq_lineBreak_iff, exists_and_left, broken]
  · simp only [step_eq_rangeError_iff, Margin.BreaksLine, made]
  · intro writable byte
    exact step_of_byte (fun due => made.mpr (writable due)) byte
  · intro longest room
    exact step_congr fun due => Margin.lineBreak_of_room (room due)

/-- Levels that no run reaches: one that is just out of range, unless a closer stands there; one in
range, with an indentation that is just too long; and a negative one in a string, where neither the
level nor the line break that waits matters. -/
theorem step_outcome_of_unreachable :
    step ⟨.custom [], .countable⟩ { level := 0x8000000000000000, breakPending := true } 0x61 =
        .error (.lineBreak .levelOutOfRange) ∧
      step ⟨.custom [], .countable⟩ { level := 0x8000000000000000, breakPending := true } 0x5D =
        .ok ({ level := 0x7FFFFFFFFFFFFFFF }, [0x0A, 0x5D]) ∧
      step ⟨.standard, .countable⟩ { level := 0x4000000000000000, breakPending := true } 0x61 =
        .error (.lineBreak .uncountable) ∧
      step ⟨.custom [], .countable⟩ { mode := .string, level := -1, breakPending := true } 256 =
        .error .copiedOutOfRange := by
  refine ⟨?_, ?_, ?_, ?_⟩
  · exact (step_outcome (.custom []) _ 0x61).1.mpr (by decide)
  · have writable : (Indentation.custom []).Countable 0x7FFFFFFFFFFFFFFF := by
      simp [Indentation.Countable, Indentation.text, Indentation.unit, LevelInRange]
    refine (step_outcome (.custom []) _ 0x5D).2.2.2.2.1 (fun _ => ⟨writable, ?_⟩) (by decide)
    exact List.forall_mem_nil _
  · refine (step_outcome .standard _ 0x61).2.1.mpr ⟨by decide, by decide, ?_⟩
    rw [Indentation.length_text]
    decide
  · have undue : ¬State.BreakDue { mode := .string, level := -1, breakPending := true } 256 := by
      decide
    exact (step_outcome (.custom []) _ 256).2.2.2.1.mpr ⟨fun due => absurd due undue, by decide⟩

/-- A line break is due at a level in range and with a unit without surrogates, but its indentation
would have 2^63 code points: it is refused, before a byte and before a number that is none. -/
theorem step_of_long_indentation :
    State.BreakDue { level := 0x4000000000000000, breakPending := true } 300 ∧
      LevelInRange (State.breakLevel { level := 0x4000000000000000, breakPending := true } 300) ∧
      (Indentation.standard.text
        (State.breakLevel { level := 0x4000000000000000, breakPending := true } 300)).Encodable ∧
      ¬(0 ≤ (300 : Int) ∧ (300 : Int) ≤ 255) ∧
      step ⟨.standard, .countable⟩ { level := 0x4000000000000000, breakPending := true } 300 =
        .error (.lineBreak .uncountable) ∧
      step ⟨.standard, .countable⟩ { level := 0x4000000000000000, breakPending := true } 0x61 =
        .error (.lineBreak .uncountable) ∧
      StepError.message (.lineBreak .uncountable) = "repeated string is too long" := by
  refine ⟨by decide, by decide, ?_, by decide, rfl, rfl, rfl⟩
  have unit : Indentation.standard.unit.Encodable := by decide
  exact fun c member => unit c (mem_of_mem_repeated member)

end Reindent
