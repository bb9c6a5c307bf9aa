import Reindent.Alphabet

/-!
What layout knows between two bytes, and how one byte changes it.

Outside strings and comments all layout is regenerated: raw whitespace is dropped, openers and
commas request a line break before whatever follows, closers stand on a line of their own unless
their container is empty, and a colon is followed by a space.  Strings and comments are copied.

A transition is told in pieces, before any indentation unit is chosen: line breaks at a level, the
byte itself, a space.  So where the breaks fall, and what the next state is, cannot depend on the
unit.
-/

namespace Reindent

/-- The lexical context of the next byte. -/
inductive Mode where
  /-- Structural text. -/
  | normal
  /-- Inside a string. -/
  | string
  /-- Inside a comment. -/
  | comment
deriving DecidableEq

/-- What layout knows between two bytes. -/
structure State where
  mode : Mode := .normal
  /-- The previous byte of the string was an unescaped backslash. -/
  escapePending : Bool := false
  /-- How many containers are open. -/
  level : Int := 0
  /-- The next byte must start a new line. -/
  breakPending : Bool := false
  /-- The pending break was requested by an opener, with only whitespace since. -/
  openerPending : Bool := false
deriving DecidableEq

/-- One thing that a transition writes. -/
inductive Piece where
  /-- A line break, indented to a level. -/
  | lineBreak (level : Int)
  /-- A byte of a string or a comment. -/
  | copied (byte : Int)
  /-- A byte of structural text. -/
  | echoed (byte : Int)
  /-- The space after a colon. -/
  | space
deriving DecidableEq

namespace State

/-- The state before the first byte. -/
def initial : State := {}

/-- A comment is copied up to its newline, which ends it and is copied too. -/
def nextInComment (state : State) (byte : Int) : State × List Piece :=
  (if byte = Code.newline then { state with mode := .normal } else state, [.copied byte])

/-- A string is copied up to a quote that no backslash escapes. -/
def nextInString (state : State) (byte : Int) : State × List Piece :=
  (if state.escapePending then { state with escapePending := false }
    else if byte = Code.backslash then { state with escapePending := true }
    else if byte = Code.quote then { state with mode := .normal }
    else state,
    [.copied byte])

/-- The level that a structural byte stands at: a closer closes first, and a closer without a
container stays at level zero. -/
def levelOf (state : State) (mark : Mark) : Int :=
  if mark = .closer then max (state.level - 1) 0 else state.level

/-- A closer that no break precedes yet goes on its own line. -/
def closerBreak (state : State) (mark : Mark) : List Piece :=
  if mark = .closer ∧ state.breakPending = false then [.lineBreak (state.levelOf mark)] else []

/-- A requested break is written before the byte, unless it would only split an empty
container. -/
def requestedBreak (state : State) (mark : Mark) : List Piece :=
  if state.breakPending = true ∧ ¬(mark = .closer ∧ state.openerPending = true) then
    [.lineBreak (state.levelOf mark)]
  else
    []

/-- The context after a structural byte. -/
def modeAfter : Mark → Mode
  | .quote => .string
  | .hash => .comment
  | _ => .normal

/-- The state after a structural byte that is not whitespace. -/
def afterMark (state : State) (mark : Mark) : State where
  mode := modeAfter mark
  escapePending := false
  level := if mark = .opener then state.levelOf mark + 1 else state.levelOf mark
  breakPending := decide (mark = .opener ∨ mark = .comma)
  openerPending := decide (mark = .opener)

/-- Structural text: whitespace is dropped, and any other byte is written after the breaks that it
needs. -/
def nextInText (state : State) (byte : Int) : State × List Piece :=
  let mark := Mark.ofCode byte
  if mark = .blank then
    (state, [])
  else
    (state.afterMark mark,
      state.closerBreak mark ++ state.requestedBreak mark ++ [.echoed byte] ++
        if mark = .colon then [.space] else [])

/-- One transition. -/
def next (state : State) (byte : Int) : State × List Piece :=
  match state.mode with
  | .comment => state.nextInComment byte
  | .string => state.nextInString byte
  | .normal => state.nextInText byte

theorem next_of_comment {state : State} (mode : state.mode = .comment) (byte : Int) :
    state.next byte = state.nextInComment byte := by
  simp [next, mode]

theorem next_of_string {state : State} (mode : state.mode = .string) (byte : Int) :
    state.next byte = state.nextInString byte := by
  simp [next, mode]

theorem next_of_normal {state : State} (mode : state.mode = .normal) (byte : Int) :
    state.next byte = state.nextInText byte := by
  simp [next, mode]

end State

end Reindent
