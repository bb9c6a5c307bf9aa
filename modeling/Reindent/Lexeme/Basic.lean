import Reindent.Alphabet

/-!
Lexemes: what a text holds besides whitespace.

A text is cut into strings, comments, punctuation, atoms and raw whitespace.  Its lexemes are these
without the whitespace, and with atoms that only whitespace kept apart glued together, since
layout drops the whitespace between them.

Every text has lexemes: a string may end with the text instead of a quote, and whatever has no
other meaning is part of an atom.  Main statement: no code point is lost or invented in the cutting
(`flatMap_text_scan`).
-/

namespace Reindent

/-- The kinds of lexemes. -/
inductive LexemeKind where
  | string
  | comment
  | punctuation
  | atom
deriving DecidableEq

/-- The name of a kind in messages. -/
def LexemeKind.name : LexemeKind → String
  | .string => "string"
  | .comment => "comment"
  | .punctuation => "punct"
  | .atom => "atom"

/-- A lexeme is a stretch of text of one kind. -/
structure Lexeme where
  kind : LexemeKind
  text : Text
deriving DecidableEq

/-- A stretch of text that is a lexeme or whitespace. -/
inductive Token where
  | blank (run : Text)
  | lexeme (content : Lexeme)
deriving DecidableEq

/-- The text that a token covers. -/
def Token.text : Token → Text
  | .blank run => run
  | .lexeme content => content.text

/-- The lexeme of a token, if it is one. -/
def Token.lexeme? : Token → Option Lexeme
  | .blank _ => none
  | .lexeme content => some content

namespace Lexeme

/-- What follows the opening quote of a string, up to the closing quote or the end of the text, and
the rest.  A backslash takes the next code point with it, whatever that is. -/
def takeString : Text → Text × Text
  | [] => ([], [])
  | c :: rest =>
      if c.code = Code.quote then
        ([c], rest)
      else if c.code = Code.backslash then
        match rest with
        | [] => ([c], [])
        | escaped :: rest =>
            let (body, rest) := takeString rest
            (c :: escaped :: body, rest)
      else
        let (body, rest) := takeString rest
        (c :: body, rest)

/-- The longest stretch at the front all of whose code points satisfy a test, and the rest. -/
def takeRun (belongs : CodePoint → Bool) (text : Text) : Text × Text :=
  (text.takeWhile belongs, text.dropWhile belongs)

/-- The token at the front of a text, and the rest. -/
def takeToken (c : CodePoint) (rest : Text) : Token × Text :=
  match c.mark with
  | .blank =>
      let (run, rest) := takeRun (fun d => d.mark == .blank) rest
      (.blank (c :: run), rest)
  | .quote =>
      let (body, rest) := takeString rest
      (.lexeme ⟨.string, c :: body⟩, rest)
  | .hash =>
      let (body, rest) := takeRun (fun d => d.code != Code.newline) rest
      (.lexeme ⟨.comment, c :: body⟩, rest)
  | .ordinary =>
      let (run, rest) := takeRun (fun d => d.mark == .ordinary) rest
      (.lexeme ⟨.atom, c :: run⟩, rest)
  | .opener | .closer | .colon | .comma => (.lexeme ⟨.punctuation, [c]⟩, rest)

theorem takeString_append (text : Text) : (takeString text).1 ++ (takeString text).2 = text := by
  fun_induction takeString text <;> simp_all

theorem takeRun_append (belongs : CodePoint → Bool) (text : Text) :
    (takeRun belongs text).1 ++ (takeRun belongs text).2 = text :=
  List.takeWhile_append_dropWhile

/-- A token and the rest are the text. -/
theorem takeToken_append (c : CodePoint) (rest : Text) :
    (takeToken c rest).1.text ++ (takeToken c rest).2 = c :: rest := by
  unfold takeToken
  split <;> simp [Token.text, takeString_append, takeRun_append]

/-- A token has at least one code point. -/
theorem text_takeToken_ne_nil (c : CodePoint) (rest : Text) :
    (takeToken c rest).1.text ≠ [] := by
  unfold takeToken
  split <;> simp [Token.text]

theorem length_takeToken (c : CodePoint) (rest : Text) :
    (takeToken c rest).2.length < (c :: rest).length := by
  have whole := congrArg List.length (takeToken_append c rest)
  have some_text := List.length_pos_iff.mpr (text_takeToken_ne_nil c rest)
  simp only [List.length_append] at whole
  omega

/-- Cut a text into tokens. -/
def scan : Text → List Token
  | [] => []
  | c :: rest =>
      let front := takeToken c rest
      front.1 :: scan front.2
termination_by text => text.length
decreasing_by exact length_takeToken c rest

/-- The tokens of a text spell the text. -/
theorem flatMap_text_scan (text : Text) : (scan text).flatMap Token.text = text := by
  fun_induction scan text with
  | case1 => rfl
  | case2 c rest front spelled =>
      rw [List.flatMap_cons, spelled, takeToken_append]

/-- Glue atoms that follow each other. -/
def glue : List Lexeme → List Lexeme
  | [] => []
  | first :: rest =>
      match glue rest with
      | [] => [first]
      | second :: others =>
          if first.kind = .atom ∧ second.kind = .atom then
            ⟨.atom, first.text ++ second.text⟩ :: others
          else
            first :: second :: others

/-- The lexemes of a text. -/
def ofText (text : Text) : List Lexeme := glue ((scan text).filterMap Token.lexeme?)

end Lexeme

end Reindent
