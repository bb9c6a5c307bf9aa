import Reindent.Lexeme.Basic

/-!
The rules of layout, told by lexemes.

Layout itself goes byte by byte and keeps no lexeme.  Here the same rules are stated over the
lexemes of a whole text: which of them start a line, how deep the line is, and what follows a colon
and a comment.  A lexeme is laid out by the depth it is met at and by the one lexeme before it.
-/

namespace Reindent.Lexeme

/-- What punctuation a lexeme is; strings, comments and atoms are none. -/
def mark (lexeme : Lexeme) : Mark :=
  match lexeme.kind, lexeme.text with
  | .punctuation, [c] => c.mark
  | _, _ => .ordinary

/-- The depth after a lexeme.  A closer without an opener leaves it at zero. -/
def depthAfter (lexeme : Lexeme) (depth : Nat) : Nat :=
  match lexeme.mark with
  | .opener => depth + 1
  | .closer => depth - 1
  | _ => depth

/-- The depth of the line that a lexeme starts, if it starts one.  A closer does, except right after
an opener; any other lexeme does right after an opener or a comma. -/
def lineDepth? (lexeme : Lexeme) (depth : Nat) (previous : Option Lexeme) : Option Nat :=
  let before := (previous.map mark).getD .ordinary
  if lexeme.mark = .closer then
    if before = .opener then none else some (depth - 1)
  else
    if before = .opener ∨ before = .comma then some depth else none

/-- A newline and the indentation of a line. -/
def lineStart (unit : Text) : Option Nat → Text
  | none => []
  | some depth => .ofChar '\n' :: repeated depth unit

/-- What follows a lexeme: a space after a colon, and after a comment the newline that ends it. -/
def trailer (lexeme : Lexeme) (ends : Bool) : Text :=
  if lexeme.mark = .colon then [.ofChar ' ']
  else if lexeme.kind = .comment ∧ ends = true then [.ofChar '\n']
  else []

/-- Lay out the lexemes that remain.  `closed` tells whether a comment at the very end has its
newline. -/
def layoutFrom (unit : Text) (closed : Bool) (depth : Nat) (previous : Option Lexeme) :
    List Lexeme → Text
  | [] => []
  | lexeme :: rest =>
      lineStart unit (lexeme.lineDepth? depth previous) ++ lexeme.text ++
        lexeme.trailer (closed || !rest.isEmpty) ++
        layoutFrom unit closed (lexeme.depthAfter depth) (some lexeme) rest

/-- Whether a text ends within a comment. -/
def endsInComment (text : Text) : Bool :=
  match (scan text).getLast? with
  | some (.lexeme last) => last.kind == .comment
  | _ => false

/-- The layout of a text by its lexemes. -/
def layout (unit : Text) (text : Text) : Text :=
  layoutFrom unit (!endsInComment text) 0 none (ofText text)

end Reindent.Lexeme
