import Reindent.Proofs.Grammar
import Reindent.Proofs.TextTrace

/-!
The trace of a text, along its grammar.

Between two lexemes layout knows how many containers are open and what the last lexeme was, and
nothing else (`State.between`).  A symbol outside strings and comments leads from one such state to
another, or to the same state in the mode of a string or a comment; there everything is copied, and
the end of the string or comment leads back.
-/

namespace Reindent.State

/-- The state between two lexemes, or within one in another mode. -/
def between (depth : Nat) (before : Mark) (mode : Mode := .normal) : State where
  mode := mode
  level := depth
  breakPending := decide (before = .opener ∨ before = .comma)
  openerPending := decide (before = .opener)

theorem initial_eq_between : initial = between 0 .ordinary := rfl

section Transitions

variable (depth : Nat) (before : Mark)

/-! ### Outside strings and comments -/

theorem afterMark_ordinary :
    (between depth before).afterMark .ordinary = between depth .ordinary := rfl

theorem afterMark_quote :
    (between depth before).afterMark .quote = between depth .ordinary .string := rfl

theorem afterMark_hash :
    (between depth before).afterMark .hash = between depth .ordinary .comment := rfl

/-- After punctuation the depth is the one that the rules give. -/
theorem afterMark_punctuation {c : CodePoint} (mark : c.mark.isPunctuation = true) :
    (between depth before).afterMark c.mark =
      between (Lexeme.depthAfter ⟨.punctuation, [c]⟩ depth) c.mark := by
  have same : Lexeme.mark ⟨.punctuation, [c]⟩ = c.mark := rfl
  cases kind : c.mark with
  | opener | colon | comma =>
      simp [afterMark, between, levelOf, modeAfter, Lexeme.depthAfter, same, kind]
  | closer =>
      have above : max ((depth : Int) - 1) 0 = (depth - 1 : Nat) := by omega
      simp [afterMark, between, levelOf, modeAfter, Lexeme.depthAfter, same, kind, above]
  | blank | quote | hash | ordinary =>
      rw [kind] at mark
      cases mark

/-! ### Within strings and comments -/

theorem next_closing {code : Int} (closing : code = Code.quote) :
    (between depth before .string).next code = (between depth before, [.copied code]) := by
  subst closing
  rfl

theorem next_backslash {code : Int} (backslash : code = Code.backslash) :
    (between depth before .string).next code =
      ({ between depth before .string with escapePending := true }, [.copied code]) := by
  subst backslash
  rfl

theorem next_escaped (code : Int) :
    ({ between depth before .string with escapePending := true } : State).next code =
      (between depth before .string, [.copied code]) := rfl

theorem next_plain {code : Int} (unquoted : code ≠ Code.quote)
    (unescaped : code ≠ Code.backslash) :
    (between depth before .string).next code = (between depth before .string, [.copied code]) := by
  simp [next, nextInString, between, unquoted, unescaped]

theorem next_newline :
    (between depth before .comment).next Code.newline =
      (between depth before, [.copied Code.newline]) := rfl

theorem next_commented {code : Int} (inside : code ≠ Code.newline) :
    (between depth before .comment).next code =
      (between depth before .comment, [.copied code]) := by
  simp [next, nextInComment, between, inside]

/-- The pieces that copy a text. -/
def copies (text : Text) : List Piece := text.map fun c => .copied c.code

theorem text_copies (unit text : Text) : (copies text).flatMap (Piece.text unit) = text := by
  have each : ∀ c : CodePoint, (Piece.copied c.code).text unit = [c] :=
    Piece.text_written unit .string
  simp [copies, List.flatMap_map, each]

/-- A string that is closed is copied, and layout is where it was before the string. -/
theorem traceText_closedBody {body : Text} (closed : Lexeme.ClosedBody body) :
    (between depth before .string).traceText body = (between depth before, copies body) := by
  induction closed with
  | quote closing =>
      rw [traceText_cons, next_closing depth before closing]
      rfl
  | escaped backslash _ later =>
      rw [traceText_cons, next_backslash depth before backslash, traceText_cons, next_escaped,
        later]
      rfl
  | plain unquoted unescaped _ later =>
      rw [traceText_cons, next_plain depth before unquoted unescaped, later]
      rfl

/-- A string that is open to the end is copied as well. -/
theorem traceText_openBody {body : Text} (unclosed : Lexeme.OpenBody body) :
    ((between depth before .string).traceText body).2 = copies body := by
  induction unclosed with
  | nil => rfl
  | dangling backslash =>
      rw [traceText_cons, next_backslash depth before backslash]
      rfl
  | escaped backslash _ later =>
      rw [traceText_cons, next_backslash depth before backslash, traceText_cons, next_escaped,
        later]
      rfl
  | plain unquoted unescaped _ later =>
      rw [traceText_cons, next_plain depth before unquoted unescaped, later]
      rfl

/-- A comment is copied up to its newline. -/
theorem traceText_oneLine {run : Text} (line : Lexeme.OneLine run) :
    (between depth before .comment).traceText run =
      (between depth before .comment, copies run) := by
  induction run with
  | nil => rfl
  | cons c run later =>
      obtain ⟨inside, line⟩ := List.forall_mem_cons.mp line
      rw [traceText_cons, next_commented depth before inside, later line]
      rfl

end Transitions

end Reindent.State
