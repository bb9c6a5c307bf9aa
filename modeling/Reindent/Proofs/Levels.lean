import Reindent.Proofs.TextTrace

/-!
Levels stay within the length of a text.

A transition raises the level by at most one and never takes it below zero, and no break is deeper
than the level before it.  So a text has no break deeper than its length, and where lengths are
within the 64-bit range, a line break can fail for want of memory or for its unit only.

Main statements: `lineBreak_traceText` bounds the breaks of a text, and
`firstBreakFault?_of_encodable` leaves memory as the only obstacle to them.
-/

namespace Reindent

namespace State

/-- A level that containers can have. -/
def Grounded (state : State) : Prop := 0 ≤ state.level

theorem grounded_initial : initial.Grounded := Int.le_refl 0

theorem levelOf_bounds {state : State} (grounded : state.Grounded) (mark : Mark) :
    0 ≤ state.levelOf mark ∧ state.levelOf mark ≤ state.level := by
  unfold Grounded at grounded
  unfold levelOf
  split
  · constructor
    · exact Int.le_max_right _ _
    · exact Int.max_le.mpr ⟨Int.sub_le_self _ (by decide), grounded⟩
  · exact ⟨grounded, Int.le_refl _⟩

/-- One transition keeps the level grounded and raises it by one at most. -/
theorem level_next {state : State} (grounded : state.Grounded) (code : Int) :
    (state.next code).1.Grounded ∧ (state.next code).1.level ≤ state.level + 1 := by
  have kept : ∀ after : State, after.level = state.level →
      after.Grounded ∧ after.level ≤ state.level + 1 := by
    intro after same
    unfold Grounded at grounded ⊢
    rw [same]
    exact ⟨grounded, Int.le_add_one (Int.le_refl _)⟩
  unfold next
  cases state.mode with
  | comment =>
      apply kept
      unfold nextInComment
      simp only
      split <;> rfl
  | string =>
      apply kept
      unfold nextInString
      simp only
      repeat' split
      all_goals rfl
  | normal =>
      simp only [nextInText]
      split
      · exact kept state rfl
      · obtain ⟨low, high⟩ := levelOf_bounds grounded (Mark.ofCode code)
        simp only [afterMark, Grounded]
        split
        · exact ⟨Int.le_add_one low, Int.add_le_add_right high 1⟩
        · exact ⟨low, Int.le_add_one high⟩

/-- A break is no deeper than the level before it. -/
theorem lineBreak_next {state : State} (grounded : state.Grounded) {code level : Int}
    (told : .lineBreak level ∈ (state.next code).2) : 0 ≤ level ∧ level ≤ state.level := by
  rcases mem_next told with same | same | same
  · cases same
    exact levelOf_bounds grounded _
  · cases same
  · exact absurd same.symm (state.mode.written_ne_lineBreak code level)

/-- No break of a text is deeper than the level before the text and the length of the text. -/
theorem lineBreak_traceText {state : State} (grounded : state.Grounded) {text : Text} {level : Int}
    (told : .lineBreak level ∈ (state.traceText text).2) :
    0 ≤ level ∧ level ≤ state.level + text.length := by
  induction text generalizing state with
  | nil => cases told
  | cons c rest later =>
      obtain ⟨grounded_after, raised⟩ := level_next grounded c.code
      rw [List.length_cons]
      rcases List.mem_append.mp told with now | afterwards
      · obtain ⟨low, high⟩ := lineBreak_next grounded now
        exact ⟨low, by omega⟩
      · obtain ⟨low, high⟩ := later grounded_after afterwards
        exact ⟨low, by omega⟩

end State

/-! ### What can stop a line break -/

/-- Faults of memory: there is none for the indentation, or its length cannot be counted. -/
def BreakError.IsWantOfMemory (error : BreakError) : Prop :=
  error = .outOfMemory ∨ error = .uncountable

theorem Memory.isWantOfMemory_of_fault? {memory : Memory} {length : Nat} {error : BreakError}
    (fault : memory.fault? length = some error) :
    memory ≠ .unbounded ∧ error.IsWantOfMemory := by
  cases memory with
  | unbounded => cases fault
  | bounded longest =>
      refine ⟨by simp, ?_⟩
      simp only [fault?] at fault
      split at fault
      · cases fault
        exact .inr rfl
      · split at fault
        · cases fault
          exact .inl rfl
        · cases fault

/-- At a level in range, a unit that can be encoded leaves memory as the only obstacle. -/
theorem Margin.isWantOfMemory_of_breakFault? {margin : Margin} {level : Int} {error : BreakError}
    (encodable : margin.indentation.unit.Encodable) (within : LevelInRange level)
    (fault : margin.breakFault? level = some error) :
    margin.memory ≠ .unbounded ∧ error.IsWantOfMemory := by
  have copies : SurrogateRun.ofCopies? level.toNat margin.indentation.unit = none := by
    rw [SurrogateRun.ofCopies?_eq, SurrogateRun.find?_isSurrogate_eq_none]
    intro c member
    exact encodable c (mem_of_mem_repeated member)
  unfold breakFault? renderFault? at fault
  rw [if_pos within, copies] at fault
  by_cases grounded : level ≤ 0
  · rw [if_pos grounded] at fault
    cases fault
  · rw [if_neg grounded] at fault
    cases stopped : margin.memory.fault? (level.toNat * margin.indentation.unit.length) with
    | none =>
        rw [stopped] at fault
        cases fault
    | some cause =>
        rw [stopped] at fault
        cases fault
        exact Memory.isWantOfMemory_of_fault? stopped

/-- The line breaks of a text that can be counted are within the 64-bit range. -/
theorem levelInRange_traceText {text : Text} (countable : text.length < 0x8000000000000000)
    {level : Int} (told : .lineBreak level ∈ (State.initial.traceText text).2) :
    LevelInRange level := by
  obtain ⟨low, high⟩ := State.lineBreak_traceText State.grounded_initial told
  have start : State.initial.level = 0 := rfl
  unfold LevelInRange
  omega

/-- The breaks of a text that can be counted fail for want of memory, if they fail. -/
theorem firstBreakFault?_of_encodable {margin : Margin} {text : Text} {error : BreakError}
    (encodable : margin.indentation.unit.Encodable) (countable : text.length < 0x8000000000000000)
    (fault : margin.firstBreakFault? (State.initial.traceText text).2 = some error) :
    margin.memory ≠ .unbounded ∧ error.IsWantOfMemory := by
  obtain ⟨piece, told, stopped⟩ := List.exists_of_findSome?_eq_some fault
  cases piece with
  | lineBreak level =>
      exact margin.isWantOfMemory_of_breakFault? encodable (levelInRange_traceText countable told)
        stopped
  | copied code => cases stopped
  | echoed code => cases stopped
  | space => cases stopped

end Reindent
