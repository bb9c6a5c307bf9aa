import Reindent.Proofs.Levels
import Reindent.Proofs.LexicalTrace
import Reindent.Proofs.Rendering

/-!
The states that layout can be in.

A state has five fields, and most combinations of them make no sense: an escape outside strings, a
line break that waits within a comment, an opener that no container belongs to.  No transition leads
from a consistent state to one of these (`Consistent.next`).  Conversely, every consistent state is
a few symbols away from openers in a row, and openers lead to every depth.

Main statement: the states that byte sequences lead to are the consistent ones (`reached_iff`).
-/

namespace Reindent

/-! ### What every run keeps -/

namespace State

/-- Fields that fit together. -/
structure Consistent (state : State) : Prop where
  /-- No container is closed that was not opened. -/
  level : 0 ≤ state.level
  /-- Only a string has escapes. -/
  escapePending : state.escapePending = true → state.mode = .string
  /-- A line break is never carried into a string or a comment. -/
  breakPending : state.breakPending = true → state.mode = .normal
  /-- An opener has requested a line break, and its container is open. -/
  openerPending : state.openerPending = true → state.breakPending = true ∧ 1 ≤ state.level

variable {state : State}

theorem consistent_initial : initial.Consistent where
  level := grounded_initial
  escapePending := fun pending => nomatch pending
  breakPending := fun _ => rfl
  openerPending := fun pending => nomatch pending

/-- Nothing is escaped outside strings. -/
theorem Consistent.not_escapePending (consistent : state.Consistent)
    (outside : state.mode ≠ .string) : state.escapePending = false := by
  rw [← Bool.not_eq_true]
  exact fun pending => outside (consistent.escapePending pending)

/-- Layout waits for nothing while it copies. -/
theorem Consistent.not_breakPending (consistent : state.Consistent)
    (copying : state.mode ≠ .normal) : state.breakPending = false := by
  rw [← Bool.not_eq_true]
  exact fun pending => copying (consistent.breakPending pending)

theorem Consistent.not_openerPending (consistent : state.Consistent)
    (copying : state.mode ≠ .normal) : state.openerPending = false := by
  rw [← Bool.not_eq_true]
  intro pending
  have waiting := (consistent.openerPending pending).1
  rw [consistent.not_breakPending copying] at waiting
  cases waiting

/-- A state that copies is told by its mode, its escape and its depth. -/
theorem Consistent.eq_between (consistent : state.Consistent) (copying : state.mode ≠ .normal)
    {depth : Nat} (level : state.level = depth) :
    state =
      { between depth .ordinary state.mode with escapePending := state.escapePending } := by
  have unrequested := consistent.not_breakPending copying
  have unopened := consistent.not_openerPending copying
  obtain ⟨mode, escape, _, _, _⟩ := state
  cases level
  cases unrequested
  cases unopened
  rfl

/-- While layout copies, only the mode and the escape change. -/
theorem Consistent.copying (consistent : state.Consistent) (copying : state.mode ≠ .normal)
    (mode : Mode) {escape : Bool} (fits : escape = true → mode = .string) :
    State.Consistent { state with mode := mode, escapePending := escape } where
  level := consistent.level
  escapePending := fits
  breakPending := by
    intro pending
    rw [consistent.not_breakPending copying] at pending
    cases pending
  openerPending := by
    intro pending
    rw [consistent.not_openerPending copying] at pending
    cases pending

theorem Consistent.afterMark (consistent : state.Consistent) (mark : Mark) :
    (state.afterMark mark).Consistent := by
  have above := (levelOf_bounds consistent.level mark).1
  refine ⟨?_, (fun pending => nomatch pending), fun pending => ?_, fun pending => ?_⟩
  · simp only [State.afterMark]
    split
    · exact Int.le_add_one above
    · exact above
  · rcases of_decide_eq_true pending with rfl | rfl <;> rfl
  · have opens : mark = .opener := of_decide_eq_true pending
    subst opens
    exact ⟨rfl, Int.add_le_add_right above 1⟩

/-- One transition leads from a consistent state to a consistent one, whatever symbol it reads. -/
theorem Consistent.next (consistent : state.Consistent) (code : Int) :
    (state.next code).1.Consistent := by
  cases mode : state.mode with
  | comment =>
      have copying : state.mode ≠ .normal := by simp [mode]
      have unescaped : state.escapePending = true → Mode.normal = .string := by
        intro pending
        rw [consistent.escapePending pending] at mode
        cases mode
      rw [next_of_comment mode]
      unfold nextInComment
      simp only
      split
      · exact consistent.copying copying .normal unescaped
      · exact consistent
  | string =>
      have copying : state.mode ≠ .normal := by simp [mode]
      rw [next_of_string mode]
      unfold nextInString
      simp only
      split
      · exact consistent.copying copying state.mode (fun pending => nomatch pending)
      · rename_i unescaped
        split
        · exact consistent.copying copying state.mode fun _ => mode
        · split
          · exact consistent.copying copying .normal fun pending => absurd pending unescaped
          · exact consistent
  | normal =>
      rw [next_of_normal mode]
      unfold nextInText
      simp only
      split
      · exact consistent
      · exact consistent.afterMark _

/-- Byte sequences of any length lead from a consistent state to a consistent one. -/
theorem Consistent.trace (consistent : state.Consistent) (bytes : Bytes) :
    (state.trace bytes).1.Consistent := by
  induction bytes generalizing state with
  | nil => exact consistent
  | cons byte rest later =>
      rw [trace_cons]
      exact later (consistent.next (byteCode byte))

end State

/-! ### What some run reaches -/

/-- Some byte sequence leads from the initial state to a state. -/
def Reached (margin : Margin) (state : State) : Prop :=
  ∃ bytes written, run margin .initial bytes = .ok (state, written)

/-- A margin that can write the line breaks of all levels that containers have, below 2^63. -/
def Margin.WritesLevels (margin : Margin) : Prop :=
  ∀ level : Int, 0 ≤ level → level < 0x8000000000000000 → margin.breakFault? level = none

/-- With memory for every text, a unit that can be encoded is written at all these levels. -/
theorem Margin.writesLevels_of_encodable {indentation : Indentation}
    (unit : indentation.unit.Encodable) : Margin.WritesLevels ⟨indentation, .unbounded⟩ := by
  intro level low high
  have within : LevelInRange level := ⟨by omega, high⟩
  cases fault : Margin.breakFault? ⟨indentation, .unbounded⟩ level with
  | none => rfl
  | some error => exact absurd rfl (Margin.isWantOfMemory_of_breakFault? unit within fault).1

section Reached

variable {margin : Margin} {state : State}

theorem Reached.consistent (reached : Reached margin state) : state.Consistent := by
  obtain ⟨bytes, written, ran⟩ := reached
  rw [(run_eq_ok_iff.mp ran).2.1]
  exact State.consistent_initial.trace bytes

theorem reached_initial (margin : Margin) : Reached margin .initial := ⟨[], [], rfl⟩

/-- Below the level 2^63, every byte can be read. -/
theorem Reached.next (writes : margin.WritesLevels) (reached : Reached margin state)
    (countable : state.level < 0x8000000000000000) (byte : UInt8) :
    Reached margin (state.next (byteCode byte)).1 := by
  have grounded := reached.consistent.level
  obtain ⟨bytes, written, ran⟩ := reached
  have renders : margin.Renders state [byte] := by
    intro level told
    rw [State.trace_cons, State.trace_nil, List.append_nil] at told
    obtain ⟨low, high⟩ := State.lineBreak_next grounded told
    exact writes level low (Int.lt_of_le_of_lt high countable)
  refine ⟨bytes ++ [byte], written ++ (state.trace [byte]).2.flatMap (Piece.bytes margin), ?_⟩
  rw [run_append, ran]
  simp only
  rw [run_of_renders renders, State.trace_cons, State.trace_nil]

/-- A symbol of structural text leads to the state after its mark. -/
theorem Reached.afterMark (writes : margin.WritesLevels) (reached : Reached margin state)
    (countable : state.level < 0x8000000000000000) (mode : state.mode = .normal) {byte : UInt8}
    (visible : byteMark byte ≠ .blank) : Reached margin (state.afterMark (byteMark byte)) := by
  have after := reached.next writes countable byte
  rw [State.next_of_visible mode visible] at after
  exact after

/-- Openers in a row lead to every depth. -/
theorem reached_depth (writes : margin.WritesLevels) {depth : Nat}
    (countable : (depth : Int) < 0x8000000000000000) :
    ∃ before, Reached margin (.between depth before) ∧ (1 ≤ depth → before = .opener) := by
  induction depth with
  | zero => exact ⟨.ordinary, reached_initial margin, fun open_ => nomatch open_⟩
  | succ depth shallower =>
      have below : (depth : Int) < 0x8000000000000000 := by omega
      obtain ⟨before, reached, -⟩ := shallower below
      have visible : byteMark 0x5B ≠ .blank := by decide
      have opened := reached.afterMark writes below rfl visible
      have deeper : (State.between depth before).afterMark (byteMark 0x5B) =
          .between (depth + 1) .opener := by
        have opener : byteMark 0x5B = .opener := by decide
        rw [opener]
        rfl
      rw [deeper] at opened
      exact ⟨.opener, opened, fun _ => rfl⟩

/-- From a depth, every consistent state of that depth is at most two symbols away. -/
theorem reached_of_consistent (writes : margin.WritesLevels) (consistent : state.Consistent)
    (countable : state.level < 0x8000000000000000) : Reached margin state := by
  obtain ⟨depth, level⟩ := Int.eq_ofNat_of_zero_le consistent.level
  rw [level] at countable
  obtain ⟨before, reached, opened⟩ := reached_depth writes countable
  have symbol : ∀ (byte : UInt8) (mark : Mark), byteMark byte = mark → mark ≠ .blank →
      Reached margin ((State.between depth before).afterMark mark) := by
    rintro byte mark rfl visible
    exact reached.afterMark writes countable rfl visible
  cases mode : state.mode with
  | comment =>
      have commented := symbol 0x23 .hash (by decide) (by decide)
      have unescaped := consistent.not_escapePending (by simp [mode])
      rw [consistent.eq_between (by simp [mode]) level, mode, unescaped]
      exact commented
  | string =>
      have quoted := symbol 0x22 .quote (by decide) (by decide)
      rw [consistent.eq_between (by simp [mode]) level, mode]
      cases state.escapePending with
      | false => exact quoted
      | true => exact quoted.next writes countable 0x5C
  | normal =>
      have unescaped := consistent.not_escapePending (by simp [mode])
      have inside := consistent.openerPending
      obtain ⟨_, _, _, break_, opener⟩ := state
      cases mode
      cases level
      cases unescaped
      cases opener with
      | true =>
          obtain ⟨requested, deep⟩ := inside rfl
          cases requested
          rw [opened (Int.ofNat_le.mp deep)] at reached
          exact reached
      | false =>
          cases break_ with
          | true => exact symbol 0x2C .comma (by decide) (by decide)
          | false => exact symbol 0x61 .ordinary (by decide) (by decide)

end Reached

/-- The states that byte sequences lead to are the consistent ones, and all of these.  Levels are
counted in 64 bits where line breaks are made, so this is said of levels below 2^63. -/
theorem reached_iff {margin : Margin} (writes : margin.WritesLevels) {state : State}
    (countable : state.level < 0x8000000000000000) :
    Reached margin state ↔ state.Consistent :=
  ⟨Reached.consistent, fun consistent => reached_of_consistent writes consistent countable⟩

/-- An escape within as many containers as can be counted, and a line break that waits within a
comment. -/
theorem reached_iff_of_deep_escape :
    Margin.WritesLevels ⟨.standard, .unbounded⟩ ∧
      Reached ⟨.standard, .unbounded⟩
        { mode := .string, escapePending := true, level := 0x7FFFFFFFFFFFFFFF } ∧
      ¬Reached ⟨.standard, .unbounded⟩ { mode := .comment, breakPending := true } := by
  have writes : Margin.WritesLevels ⟨.standard, .unbounded⟩ :=
    Margin.writesLevels_of_encodable (by decide)
  refine ⟨writes, (reached_iff writes (by decide)).mpr ?_, fun reached => ?_⟩
  · exact ⟨by decide, fun _ => rfl, by decide, by decide⟩
  · cases ((reached_iff writes (by decide)).mp reached).breakPending rfl

end Reindent
