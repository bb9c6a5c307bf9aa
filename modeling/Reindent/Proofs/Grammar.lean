import Mathlib.Data.List.TakeWhile
import Reindent.Lexeme.Layout

/-!
The grammar of a text, read from its front.

Cutting a text into tokens and gluing atoms is said here once as equations: what one code point, one
string or one comment at the front of a text adds to the lexemes of what follows.  No later proof
opens the cutting itself.  A text is built from its end by these same steps, which gives an
induction with one case for each (`Text.lexicalInduction`).
-/

namespace Reindent

/-- Marks of code points that are lexemes by themselves. -/
def Mark.isPunctuation : Mark → Bool
  | .opener | .closer | .colon | .comma => true
  | _ => false

theorem CodePoint.eq_newline {c : CodePoint} (newline : c.code = Code.newline) :
    c = .ofChar '\n' := by
  ext
  simp only [CodePoint.code, Code.newline] at newline
  rw [CodePoint.value_ofChar]
  simp only [Char.reduceToNat]
  omega

theorem CodePoint.code_newline : (CodePoint.ofChar '\n').code = Code.newline := rfl

theorem CodePoint.mark_newline : (CodePoint.ofChar '\n').mark = .blank := by decide

namespace Lexeme

/-! ### Bodies of strings -/

/-- What follows an opening quote up to and including the quote that closes the string. -/
inductive ClosedBody : Text → Prop where
  | quote {c : CodePoint} (closing : c.code = Code.quote) : ClosedBody [c]
  | escaped {c d : CodePoint} {body : Text} (backslash : c.code = Code.backslash)
      (later : ClosedBody body) : ClosedBody (c :: d :: body)
  | plain {c : CodePoint} {body : Text} (unquoted : c.code ≠ Code.quote)
      (unescaped : c.code ≠ Code.backslash) (later : ClosedBody body) : ClosedBody (c :: body)

/-- What follows an opening quote that nothing closes. -/
inductive OpenBody : Text → Prop where
  | nil : OpenBody []
  | dangling {c : CodePoint} (backslash : c.code = Code.backslash) : OpenBody [c]
  | escaped {c d : CodePoint} {body : Text} (backslash : c.code = Code.backslash)
      (later : OpenBody body) : OpenBody (c :: d :: body)
  | plain {c : CodePoint} {body : Text} (unquoted : c.code ≠ Code.quote)
      (unescaped : c.code ≠ Code.backslash) (later : OpenBody body) : OpenBody (c :: body)

theorem quote_ne_backslash {c : CodePoint} (backslash : c.code = Code.backslash) :
    c.code ≠ Code.quote := by
  rw [backslash]
  decide

theorem takeString_quote {c : CodePoint} (closing : c.code = Code.quote) (rest : Text) :
    takeString (c :: rest) = ([c], rest) := by
  rw [takeString.eq_def]
  simp only
  rw [if_pos closing]

theorem takeString_escaped {c : CodePoint} (backslash : c.code = Code.backslash) (d : CodePoint)
    (rest : Text) :
    takeString (c :: d :: rest) = (c :: d :: (takeString rest).1, (takeString rest).2) := by
  rw [takeString.eq_def]
  simp only
  rw [if_neg (quote_ne_backslash backslash), if_pos backslash]

theorem takeString_plain {c : CodePoint} (unquoted : c.code ≠ Code.quote)
    (unescaped : c.code ≠ Code.backslash) (rest : Text) :
    takeString (c :: rest) = (c :: (takeString rest).1, (takeString rest).2) := by
  rw [takeString.eq_def]
  simp only
  rw [if_neg unquoted, if_neg unescaped]

/-- A string ends at the quote that closes it, whatever follows. -/
theorem takeString_closed {body : Text} (closed : ClosedBody body) (rest : Text) :
    takeString (body ++ rest) = (body, rest) := by
  induction closed with
  | quote closing => exact takeString_quote closing rest
  | escaped backslash _ taken =>
      rw [List.cons_append, List.cons_append, takeString_escaped backslash, taken]
  | plain unquoted unescaped _ taken =>
      rw [List.cons_append, takeString_plain unquoted unescaped, taken]

/-- A string that nothing closes ends with the text. -/
theorem takeString_open {body : Text} (unclosed : OpenBody body) :
    takeString body = (body, []) := by
  induction unclosed with
  | nil => rfl
  | dangling backslash =>
      rw [takeString, if_neg (quote_ne_backslash backslash), if_pos backslash]
  | escaped backslash _ taken => rw [takeString_escaped backslash, taken]
  | plain unquoted unescaped _ taken => rw [takeString_plain unquoted unescaped, taken]

/-- After an opening quote the string is closed somewhere, or it is open to the end. -/
theorem body_cases (text : Text) :
    OpenBody text ∨ ∃ body rest, ClosedBody body ∧ text = body ++ rest := by
  fun_induction takeString text with
  | case1 => exact .inl .nil
  | case2 c rest closing => exact .inr ⟨[c], rest, .quote closing, rfl⟩
  | case3 c _ backslash => exact .inl (.dangling backslash)
  | case4 c _ backslash d rest _ _ _ later =>
      rcases later with unclosed | ⟨body, remaining, closed, rfl⟩
      · exact .inl (.escaped backslash unclosed)
      · exact .inr ⟨c :: d :: body, remaining, .escaped backslash closed, rfl⟩
  | case5 c rest unquoted unescaped _ _ _ later =>
      rcases later with unclosed | ⟨body, remaining, closed, rfl⟩
      · exact .inl (.plain unquoted unescaped unclosed)
      · exact .inr ⟨c :: body, remaining, .plain unquoted unescaped closed, rfl⟩

/-- A newline does not close a string, not even right after a backslash. -/
theorem OpenBody.append_newline {body : Text} (unclosed : OpenBody body) :
    OpenBody (body ++ [.ofChar '\n']) := by
  induction unclosed with
  | nil => exact .plain (by decide) (by decide) .nil
  | dangling backslash => exact .escaped backslash .nil
  | escaped backslash _ later => exact .escaped backslash later
  | plain unquoted unescaped _ later => exact .plain unquoted unescaped later

/-- A string is open if a newline after it becomes a part of it. -/
theorem openBody_iff {body : Text} :
    (takeString (body ++ [.ofChar '\n'])).2 = [] ↔ OpenBody body := by
  constructor
  · intro taken
    rcases body_cases body with unclosed | ⟨front, rest, closed, rfl⟩
    · exact unclosed
    · rw [List.append_assoc, takeString_closed closed] at taken
      exact absurd taken (List.append_ne_nil_of_right_ne_nil rest (List.cons_ne_nil _ _))
  · intro unclosed
    rw [takeString_open unclosed.append_newline]

instance (body : Text) : Decidable (OpenBody body) := decidable_of_iff _ openBody_iff

theorem ClosedBody.not_open {body : Text} (closed : ClosedBody body) : ¬OpenBody body := by
  intro unclosed
  have taken := openBody_iff.mpr unclosed
  rw [takeString_closed closed] at taken
  cases taken

/-! ### Runs -/

/-- A row without newlines, as a comment holds it. -/
def OneLine (run : Text) : Prop := ∀ c ∈ run, c.code ≠ Code.newline

theorem OneLine.belongs {run : Text} (line : OneLine run) :
    ∀ c ∈ run, (c.code != Code.newline) = true := by
  intro c member
  exact bne_iff_ne.mpr (line c member)

theorem takeRun_oneLine {run : Text} (line : OneLine run) :
    takeRun (fun d => d.code != Code.newline) run = (run, []) := by
  unfold takeRun
  rw [List.takeWhile_eq_self_iff.mpr line.belongs, List.dropWhile_eq_nil_iff.mpr line.belongs]

theorem takeRun_oneLine_newline {run : Text} (line : OneLine run) (rest : Text) :
    takeRun (fun d => d.code != Code.newline) (run ++ .ofChar '\n' :: rest) =
      (run, .ofChar '\n' :: rest) := by
  have ends : ((CodePoint.ofChar '\n').code != Code.newline) = false := by decide
  unfold takeRun
  rw [List.takeWhile_append_of_pos line.belongs, List.dropWhile_append_of_pos line.belongs,
    List.takeWhile_cons_of_neg (by simp [ends]), List.dropWhile_cons_of_neg (by simp [ends]),
    List.append_nil]

/-- A text is one line, or a first line, a newline and the rest. -/
theorem line_cases (text : Text) :
    OneLine text ∨ ∃ run rest, OneLine run ∧ text = run ++ .ofChar '\n' :: rest := by
  induction text with
  | nil => exact .inl (by simp [OneLine])
  | cons c rest later =>
      by_cases newline : c.code = Code.newline
      · exact .inr ⟨[], rest, by simp [OneLine], by rw [c.eq_newline newline]; rfl⟩
      · rcases later with line | ⟨run, remaining, line, rfl⟩
        · exact .inl (List.forall_mem_cons.mpr ⟨newline, line⟩)
        · exact .inr ⟨c :: run, remaining, List.forall_mem_cons.mpr ⟨newline, line⟩, rfl⟩

/-! ### Gluing -/

/-- Put a code point of an atom in front of lexemes: it joins an atom that stands first, and else is
an atom of its own. -/
def consAtom (c : CodePoint) : List Lexeme → List Lexeme
  | [] => [⟨.atom, [c]⟩]
  | first :: rest =>
      if first.kind = .atom then ⟨.atom, c :: first.text⟩ :: rest
      else ⟨.atom, [c]⟩ :: first :: rest

theorem consAtom_ne_nil (c : CodePoint) (lexemes : List Lexeme) : consAtom c lexemes ≠ [] := by
  cases lexemes with
  | nil => exact List.cons_ne_nil _ _
  | cons first rest =>
      rw [consAtom]
      split <;> exact List.cons_ne_nil _ _

theorem glue_atom (c : CodePoint) (lexemes : List Lexeme) :
    glue (⟨.atom, [c]⟩ :: lexemes) = consAtom c (glue lexemes) := by
  rw [glue]
  cases glue lexemes with
  | nil => rfl
  | cons second others => simp [consAtom]

theorem glue_atom_cons (c : CodePoint) (text : Text) (lexemes : List Lexeme) :
    glue (⟨.atom, c :: text⟩ :: lexemes) = consAtom c (glue (⟨.atom, text⟩ :: lexemes)) := by
  rw [glue, glue]
  cases glue lexemes with
  | nil => rfl
  | cons second others =>
      by_cases joins : second.kind = .atom <;> simp [consAtom, joins]

/-- Only atoms are glued to what follows them. -/
theorem glue_cons {lexeme : Lexeme} (apart : lexeme.kind ≠ .atom) (lexemes : List Lexeme) :
    glue (lexeme :: lexemes) = lexeme :: glue lexemes := by
  rw [glue]
  cases glue lexemes with
  | nil => rfl
  | cons second others =>
      simp only
      rw [if_neg fun both => apart both.1]

/-! ### Lexemes, step by step -/

theorem scan_nil : scan [] = [] := by
  rw [scan]

theorem scan_cons (c : CodePoint) (rest : Text) :
    scan (c :: rest) = (takeToken c rest).1 :: scan (takeToken c rest).2 := by
  rw [scan]

theorem takeToken_blank {c : CodePoint} (mark : c.mark = .blank) (rest : Text) :
    takeToken c rest = (.blank (c :: rest.takeWhile fun d => d.mark == .blank),
      rest.dropWhile fun d => d.mark == .blank) := by
  simp only [takeToken, mark, takeRun]

theorem takeToken_ordinary {c : CodePoint} (mark : c.mark = .ordinary) (rest : Text) :
    takeToken c rest = (.lexeme ⟨.atom, c :: rest.takeWhile fun d => d.mark == .ordinary⟩,
      rest.dropWhile fun d => d.mark == .ordinary) := by
  simp only [takeToken, mark, takeRun]

theorem takeToken_punctuation {c : CodePoint} (mark : c.mark.isPunctuation = true) (rest : Text) :
    takeToken c rest = (.lexeme ⟨.punctuation, [c]⟩, rest) := by
  unfold takeToken
  cases kind : c.mark <;> rw [kind] at mark <;> first | rfl | cases mark

theorem takeToken_string {c : CodePoint} (mark : c.mark = .quote) {rest body remaining : Text}
    (taken : takeString rest = (body, remaining)) :
    takeToken c rest = (.lexeme ⟨.string, c :: body⟩, remaining) := by
  simp only [takeToken, mark, taken]

theorem takeToken_comment {c : CodePoint} (mark : c.mark = .hash) {rest run remaining : Text}
    (taken : takeRun (fun d => d.code != Code.newline) rest = (run, remaining)) :
    takeToken c rest = (.lexeme ⟨.comment, c :: run⟩, remaining) := by
  simp only [takeToken, mark, taken]

/-- The lexemes of a text before atoms are glued, so that an atom that whitespace interrupts is one
lexeme for each stretch of it. -/
def cut (text : Text) : List Lexeme := (scan text).filterMap Token.lexeme?

theorem ofText_eq_glue (text : Text) : ofText text = glue (cut text) := rfl

theorem cut_nil : cut [] = [] := by
  rw [cut, scan_nil]
  rfl

theorem cut_cons {c : CodePoint} {rest remaining : Text} {lexeme : Lexeme}
    (taken : takeToken c rest = (.lexeme lexeme, remaining)) :
    cut (c :: rest) = lexeme :: cut remaining := by
  rw [cut, scan_cons, taken]
  rfl

/-- Whitespace in front is not cut into anything. -/
theorem cut_blank {c : CodePoint} (mark : c.mark = .blank) (rest : Text) :
    cut (c :: rest) = cut rest := by
  have dropped : ∀ d text, d.mark = .blank →
      cut (d :: text) = cut (text.dropWhile fun e => e.mark == .blank) := by
    intro d text blank
    rw [cut, scan_cons, takeToken_blank blank]
    rfl
  rw [dropped c rest mark]
  cases rest with
  | nil => rfl
  | cons d text =>
      by_cases blank : d.mark = .blank
      · rw [dropped d text blank, List.dropWhile_cons_of_pos (by simp [blank])]
      · rw [List.dropWhile_cons_of_neg (by simp [blank])]

theorem ofText_nil : ofText [] = [] := by
  rw [ofText_eq_glue, cut_nil]
  rfl

theorem ofText_cons {c : CodePoint} {rest remaining : Text} {lexeme : Lexeme}
    (apart : lexeme.kind ≠ .atom) (taken : takeToken c rest = (.lexeme lexeme, remaining)) :
    ofText (c :: rest) = lexeme :: ofText remaining := by
  rw [ofText_eq_glue, cut_cons taken]
  exact glue_cons apart _

/-- Whitespace in front changes no lexeme. -/
theorem ofText_blank {c : CodePoint} (mark : c.mark = .blank) (rest : Text) :
    ofText (c :: rest) = ofText rest :=
  congrArg glue (cut_blank mark rest)

/-- A code point of an atom joins what follows it, also across whitespace. -/
theorem ofText_ordinary {c : CodePoint} (mark : c.mark = .ordinary) (rest : Text) :
    ofText (c :: rest) = consAtom c (ofText rest) := by
  rw [ofText_eq_glue, ofText_eq_glue, cut_cons (takeToken_ordinary mark rest)]
  cases rest with
  | nil => exact glue_atom c _
  | cons d text =>
      by_cases ordinary : d.mark = .ordinary
      · -- The run goes on: the atom of `rest` is the same one without its first code point.
        rw [List.takeWhile_cons_of_pos (by simp [ordinary]),
          List.dropWhile_cons_of_pos (by simp [ordinary]),
          cut_cons (takeToken_ordinary ordinary text)]
        exact glue_atom_cons c _ _
      · rw [List.takeWhile_cons_of_neg (by simp [ordinary]),
          List.dropWhile_cons_of_neg (by simp [ordinary])]
        exact glue_atom c _

theorem ofText_punctuation {c : CodePoint} (mark : c.mark.isPunctuation = true) (rest : Text) :
    ofText (c :: rest) = ⟨.punctuation, [c]⟩ :: ofText rest :=
  ofText_cons (by simp) (takeToken_punctuation mark rest)

theorem ofText_closedString {c : CodePoint} (mark : c.mark = .quote) {body : Text}
    (closed : ClosedBody body) (rest : Text) :
    ofText (c :: (body ++ rest)) = ⟨.string, c :: body⟩ :: ofText rest :=
  ofText_cons (by simp) (takeToken_string mark (takeString_closed closed rest))

theorem ofText_openString {c : CodePoint} (mark : c.mark = .quote) {body : Text}
    (unclosed : OpenBody body) : ofText (c :: body) = [⟨.string, c :: body⟩] := by
  rw [ofText_cons (by simp) (takeToken_string mark (takeString_open unclosed)), ofText_nil]

theorem ofText_comment {c : CodePoint} (mark : c.mark = .hash) {run : Text} (line : OneLine run)
    (rest : Text) :
    ofText (c :: (run ++ .ofChar '\n' :: rest)) = ⟨.comment, c :: run⟩ :: ofText rest := by
  rw [ofText_cons (by simp) (takeToken_comment mark (takeRun_oneLine_newline line rest)),
    ofText_blank CodePoint.mark_newline]

theorem ofText_lastComment {c : CodePoint} (mark : c.mark = .hash) {run : Text}
    (line : OneLine run) : ofText (c :: run) = [⟨.comment, c :: run⟩] := by
  rw [ofText_cons (by simp) (takeToken_comment mark (takeRun_oneLine line)), ofText_nil]

/-! ### Comments at the very end, step by step -/

theorem endsInComment_nil : endsInComment [] = false := by
  rw [endsInComment, scan_nil]
  rfl

/-- What follows a token decides, if there is anything. -/
theorem endsInComment_more {c d : CodePoint} {rest remaining : Text} {token : Token}
    (taken : takeToken c rest = (token, d :: remaining)) :
    endsInComment (c :: rest) = endsInComment (d :: remaining) := by
  unfold endsInComment
  rw [scan_cons c, taken, scan_cons d, List.getLast?_cons_cons]

/-- A token that is no comment leaves the decision to what follows. -/
theorem endsInComment_cons {c : CodePoint} {rest remaining : Text} {token : Token}
    (taken : takeToken c rest = (token, remaining))
    (other : ∀ lexeme, token = .lexeme lexeme → lexeme.kind ≠ .comment) :
    endsInComment (c :: rest) = endsInComment remaining := by
  cases remaining with
  | cons d remaining => exact endsInComment_more taken
  | nil =>
      rw [endsInComment_nil, endsInComment, scan_cons, taken]
      simp only [scan_nil, List.getLast?_singleton]
      cases token with
      | blank run => rfl
      | lexeme last => simpa using other last rfl

/-- Whitespace and atoms are read in runs, and no comment ends within one. -/
theorem endsInComment_run {c : CodePoint} (mark : c.mark = .blank ∨ c.mark = .ordinary)
    (rest : Text) : endsInComment (c :: rest) = endsInComment rest := by
  have dropped : ∀ d text, d.mark = c.mark →
      endsInComment (d :: text) = endsInComment (text.dropWhile fun e => e.mark == c.mark) := by
    intro d text same
    rcases mark with blank | ordinary
    · rw [blank] at same ⊢
      exact endsInComment_cons (takeToken_blank same text) (by simp)
    · rw [ordinary] at same ⊢
      exact endsInComment_cons (takeToken_ordinary same text) (by simp)
  rw [dropped c rest rfl]
  cases rest with
  | nil => rfl
  | cons d text =>
      by_cases same : d.mark = c.mark
      · rw [dropped d text same, List.dropWhile_cons_of_pos (by simp [same])]
      · rw [List.dropWhile_cons_of_neg (by simp [same])]

theorem endsInComment_punctuation {c : CodePoint} (mark : c.mark.isPunctuation = true)
    (rest : Text) : endsInComment (c :: rest) = endsInComment rest :=
  endsInComment_cons (takeToken_punctuation mark rest) (by simp)

theorem endsInComment_closedString {c : CodePoint} (mark : c.mark = .quote) {body : Text}
    (closed : ClosedBody body) (rest : Text) :
    endsInComment (c :: (body ++ rest)) = endsInComment rest :=
  endsInComment_cons (takeToken_string mark (takeString_closed closed rest)) (by simp)

theorem endsInComment_openString {c : CodePoint} (mark : c.mark = .quote) {body : Text}
    (unclosed : OpenBody body) : endsInComment (c :: body) = false := by
  rw [endsInComment_cons (takeToken_string mark (takeString_open unclosed)) (by simp),
    endsInComment_nil]

theorem endsInComment_comment {c : CodePoint} (mark : c.mark = .hash) {run : Text}
    (line : OneLine run) (rest : Text) :
    endsInComment (c :: (run ++ .ofChar '\n' :: rest)) = endsInComment rest := by
  rw [endsInComment_more (takeToken_comment mark (takeRun_oneLine_newline line rest)),
    endsInComment_run (.inl CodePoint.mark_newline)]

theorem endsInComment_lastComment {c : CodePoint} (mark : c.mark = .hash) {run : Text}
    (line : OneLine run) : endsInComment (c :: run) = true := by
  rw [endsInComment, scan_cons, takeToken_comment mark (takeRun_oneLine line)]
  simp only [scan_nil, List.getLast?_singleton]
  rfl

end Lexeme

/-! ### Induction -/

open Lexeme

/-- Every text is built from its end by code points of whitespace, atoms and punctuation, by strings
and by comments. -/
@[elab_as_elim]
theorem Text.lexicalInduction {motive : Text → Prop}
    (nil : motive [])
    (blank : ∀ c rest, c.mark = .blank → motive rest → motive (c :: rest))
    (ordinary : ∀ c rest, c.mark = .ordinary → motive rest → motive (c :: rest))
    (punctuation : ∀ c rest, c.mark.isPunctuation = true → motive rest → motive (c :: rest))
    (closedString : ∀ c body rest, c.mark = .quote → ClosedBody body → motive rest →
      motive (c :: (body ++ rest)))
    (openString : ∀ c body, c.mark = .quote → OpenBody body → motive (c :: body))
    (comment : ∀ c run rest, c.mark = .hash → OneLine run → motive rest →
      motive (c :: (run ++ .ofChar '\n' :: rest)))
    (lastComment : ∀ c run, c.mark = .hash → OneLine run → motive (c :: run))
    (text : Text) : motive text := by
  induction length : text.length using Nat.strongRecOn generalizing text with
  | ind size shorter =>
      cases text with
      | nil => exact nil
      | cons c rest =>
          rw [List.length_cons] at length
          have next : motive rest := shorter rest.length (by omega) rest rfl
          cases mark : c.mark with
          | blank => exact blank c rest mark next
          | ordinary => exact ordinary c rest mark next
          | opener | closer | colon | comma =>
              exact punctuation c rest (by rw [mark]; rfl) next
          | quote =>
              rcases body_cases rest with unclosed | ⟨body, remaining, closed, rfl⟩
              · exact openString c rest mark unclosed
              · rw [List.length_append] at length
                exact closedString c body remaining mark closed
                  (shorter remaining.length (by omega) remaining rfl)
          | hash =>
              rcases line_cases rest with line | ⟨run, remaining, line, rfl⟩
              · exact lastComment c rest mark line
              · rw [List.length_append, List.length_cons] at length
                exact comment c run remaining mark line
                  (shorter remaining.length (by omega) remaining rfl)

/-- A text that ends within a comment holds it. -/
theorem Lexeme.endsInComment_of_ofText_eq_nil {text : Text} (nothing : ofText text = []) :
    endsInComment text = false := by
  induction text using Text.lexicalInduction with
  | nil => exact endsInComment_nil
  | blank c rest mark later =>
      rw [ofText_blank mark] at nothing
      rw [endsInComment_run (.inl mark)]
      exact later nothing
  | ordinary c rest mark _ =>
      rw [ofText_ordinary mark] at nothing
      exact absurd nothing (consAtom_ne_nil c _)
  | punctuation c rest mark _ =>
      rw [ofText_punctuation mark] at nothing
      cases nothing
  | closedString c body rest mark closed _ =>
      rw [ofText_closedString mark closed] at nothing
      cases nothing
  | openString c body mark unclosed => exact endsInComment_openString mark unclosed
  | comment c run rest mark line _ =>
      rw [ofText_comment mark line] at nothing
      cases nothing
  | lastComment c run mark line =>
      rw [ofText_lastComment mark line] at nothing
      cases nothing

end Reindent
