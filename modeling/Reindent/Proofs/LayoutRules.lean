import Reindent.Proofs.Levels
import Reindent.Proofs.LexicalTrace

/-!
Layout follows the rules that are told by lexemes.

The rules speak of the lexemes of a whole text, and layout goes code point by code point.  Both are
unfolded along the grammar of the text: what one code point, string or comment at its front adds.
Between two lexemes layout knows just the depth and what the last lexeme was (`State.between`), and
from there it writes what the rules say (`laid_between`).

Main statement: reindenting a text gives the layout of its lexemes, unless memory runs out
(`reindent_eq_layout`).
-/

namespace Reindent

namespace Lexeme

/-! ### The rules along the grammar -/

/-- The mark of the lexeme before, which is all that counts of it. -/
def markBefore (previous : Option Lexeme) : Mark := (previous.map mark).getD .ordinary

/-- Lay out a text that follows a lexeme at a depth. -/
def layoutAt (unit : Text) (depth : Nat) (previous : Option Lexeme) (text : Text) : Text :=
  layoutFrom unit (!endsInComment text) depth previous (ofText text)

theorem layout_eq_layoutAt (unit text : Text) : layout unit text = layoutAt unit 0 none text := rfl

theorem layoutFrom_congr (unit : Text) (closed : Bool) (depth : Nat) {first second : Option Lexeme}
    (same : markBefore first = markBefore second) (lexemes : List Lexeme) :
    layoutFrom unit closed depth first lexemes = layoutFrom unit closed depth second lexemes := by
  cases lexemes with
  | nil => rfl
  | cons lexeme rest =>
      have line : lexeme.lineDepth? depth first = lexeme.lineDepth? depth second := by
        unfold lineDepth?
        unfold markBefore at same
        rw [same]
      rw [layoutFrom, layoutFrom, line]

/-- An atom is laid out as its first code point and then the rest of it. -/
theorem layoutFrom_consAtom (unit : Text) (closed : Bool) (depth : Nat) (previous : Option Lexeme)
    (c : CodePoint) (lexemes : List Lexeme) :
    layoutFrom unit closed depth previous (consAtom c lexemes) =
      lineStart unit (lineDepth? ⟨.atom, [c]⟩ depth previous) ++
        c :: layoutFrom unit closed depth (some ⟨.atom, [c]⟩) lexemes := by
  cases lexemes with
  | nil => simp [consAtom, layoutFrom, trailer, mark]
  | cons first others =>
      by_cases joins : first.kind = .atom
      · obtain ⟨kind, text⟩ := first
        cases joins
        have line : lineDepth? ⟨.atom, text⟩ depth (some ⟨.atom, [c]⟩) = none := rfl
        have marks : markBefore (some ⟨.atom, c :: text⟩) = markBefore (some ⟨.atom, text⟩) := rfl
        simp only [consAtom, if_true, layoutFrom, line, lineStart]
        rw [layoutFrom_congr unit closed _ marks]
        simp [lineDepth?, mark, depthAfter, trailer]
      · simp [consAtom, joins, layoutFrom, trailer, mark, depthAfter]

section Steps

variable (unit : Text) (depth : Nat) (previous : Option Lexeme)

theorem layoutAt_nil : layoutAt unit depth previous [] = [] := by
  rw [layoutAt, ofText_nil]
  rfl

theorem layoutAt_blank {c : CodePoint} (mark : c.mark = .blank) (rest : Text) :
    layoutAt unit depth previous (c :: rest) = layoutAt unit depth previous rest := by
  rw [layoutAt, ofText_blank mark, endsInComment_run (.inl mark)]
  rfl

theorem layoutAt_ordinary {c : CodePoint} (mark : c.mark = .ordinary) (rest : Text) :
    layoutAt unit depth previous (c :: rest) =
      lineStart unit (lineDepth? ⟨.atom, [c]⟩ depth previous) ++
        c :: layoutAt unit depth (some ⟨.atom, [c]⟩) rest := by
  rw [layoutAt, ofText_ordinary mark, endsInComment_run (.inr mark), layoutFrom_consAtom]
  rfl

theorem layoutAt_punctuation {c : CodePoint} (mark : c.mark.isPunctuation = true) (rest : Text) :
    layoutAt unit depth previous (c :: rest) =
      lineStart unit (lineDepth? ⟨.punctuation, [c]⟩ depth previous) ++
        c :: ((if c.mark = .colon then [.ofChar ' '] else []) ++
          layoutAt unit (depthAfter ⟨.punctuation, [c]⟩ depth) (some ⟨.punctuation, [c]⟩) rest) := by
  rw [layoutAt, ofText_punctuation mark, endsInComment_punctuation mark]
  simp [layoutFrom, layoutAt, trailer, Lexeme.mark]

theorem layoutAt_closedString {c : CodePoint} (mark : c.mark = .quote) {body : Text}
    (closed : ClosedBody body) (rest : Text) :
    layoutAt unit depth previous (c :: (body ++ rest)) =
      lineStart unit (lineDepth? ⟨.string, c :: body⟩ depth previous) ++
        c :: (body ++ layoutAt unit depth (some ⟨.string, c :: body⟩) rest) := by
  rw [layoutAt, ofText_closedString mark closed, endsInComment_closedString mark closed]
  simp [layoutFrom, layoutAt, trailer, Lexeme.mark, depthAfter]

theorem layoutAt_openString {c : CodePoint} (mark : c.mark = .quote) {body : Text}
    (unclosed : OpenBody body) :
    layoutAt unit depth previous (c :: body) =
      lineStart unit (lineDepth? ⟨.string, c :: body⟩ depth previous) ++ c :: body := by
  rw [layoutAt, ofText_openString mark unclosed]
  simp [layoutFrom, trailer, Lexeme.mark]

/-- A comment that has its newline keeps it: what follows holds a lexeme, or the text does not end
within a comment. -/
theorem layoutAt_comment {c : CodePoint} (mark : c.mark = .hash) {run : Text} (line : OneLine run)
    (rest : Text) :
    layoutAt unit depth previous (c :: (run ++ .ofChar '\n' :: rest)) =
      lineStart unit (lineDepth? ⟨.comment, c :: run⟩ depth previous) ++
        c :: (run ++ .ofChar '\n' :: layoutAt unit depth (some ⟨.comment, c :: run⟩) rest) := by
  have kept : (!endsInComment rest || !(ofText rest).isEmpty) = true := by
    cases lexemes : ofText rest with
    | cons first others => simp
    | nil => rw [endsInComment_of_ofText_eq_nil lexemes]; rfl
  rw [layoutAt, ofText_comment mark line, endsInComment_comment mark line]
  simp [layoutFrom, layoutAt, trailer, Lexeme.mark, depthAfter, kept]

theorem layoutAt_lastComment {c : CodePoint} (mark : c.mark = .hash) {run : Text}
    (line : OneLine run) :
    layoutAt unit depth previous (c :: run) =
      lineStart unit (lineDepth? ⟨.comment, c :: run⟩ depth previous) ++ c :: run := by
  rw [layoutAt, ofText_lastComment mark line, endsInComment_lastComment mark line]
  simp [layoutFrom, trailer, Lexeme.mark]

end Steps

end Lexeme

/-! ### Layout along the grammar -/

namespace State

/-- The text that layout adds for a text, with a unit. -/
def laid (unit : Text) (state : State) (text : Text) : Text :=
  (state.traceText text).2.flatMap (Piece.text unit)

section Steps

variable (unit : Text) (depth : Nat) (previous : Option Lexeme)

theorem laid_cons (state : State) (c : CodePoint) (rest : Text) :
    state.laid unit (c :: rest) =
      (state.next c.code).2.flatMap (Piece.text unit) ++ (state.next c.code).1.laid unit rest := by
  rw [laid, traceText_cons, List.flatMap_append]
  rfl

theorem laid_append (state : State) (front back : Text) :
    state.laid unit (front ++ back) =
      state.laid unit front ++ (state.traceText front).1.laid unit back := by
  rw [laid, traceText_append, List.flatMap_append]
  rfl

/-- The breaks that are due before a symbol are the start of the line that the rules give. -/
theorem breaks_eq_lineStart (lexeme : Lexeme) {mark : Mark}
    (closes : lexeme.mark = .closer ↔ mark = .closer) :
    ((between depth (Lexeme.markBefore previous)).closerBreak mark ++
        (between depth (Lexeme.markBefore previous)).requestedBreak mark).flatMap
          (Piece.text unit) =
      Lexeme.lineStart unit (lexeme.lineDepth? depth previous) := by
  have above : (max ((depth : Int) - 1) 0).toNat = depth - 1 := by omega
  have line : lexeme.lineDepth? depth previous =
      if lexeme.mark = .closer then
        if Lexeme.markBefore previous = .opener then none else some (depth - 1)
      else if Lexeme.markBefore previous = .opener ∨ Lexeme.markBefore previous = .comma then
        some depth
      else none := rfl
  rw [line]
  unfold closerBreak requestedBreak levelOf between
  by_cases closer : mark = .closer
  · by_cases opener : Lexeme.markBefore previous = .opener
    · simp [closes.mpr closer, closer, opener, Lexeme.lineStart]
    · by_cases comma : Lexeme.markBefore previous = .comma <;>
        simp [closes.mpr closer, closer, opener, comma, Lexeme.lineStart, Piece.text, above]
  · have other : lexeme.mark ≠ .closer := fun same => closer (closes.mp same)
    by_cases due : Lexeme.markBefore previous = .opener ∨ Lexeme.markBefore previous = .comma <;>
      simp [other, closer, due, Lexeme.lineStart, Piece.text]

/-- The first symbol of a lexeme starts the line that the rules give. -/
theorem laid_visible (lexeme : Lexeme) {c : CodePoint} (visible : c.mark ≠ .blank)
    (closes : lexeme.mark = .closer ↔ c.mark = .closer) (rest : Text) :
    (between depth (Lexeme.markBefore previous)).laid unit (c :: rest) =
      Lexeme.lineStart unit (lexeme.lineDepth? depth previous) ++
        c :: ((if c.mark = .colon then [.ofChar ' '] else []) ++
          ((between depth (Lexeme.markBefore previous)).afterMark c.mark).laid unit rest) := by
  have shown : (Piece.echoed c.code).text unit = [c] := Piece.text_written unit .normal c
  have code : Mark.ofCode c.code = c.mark := rfl
  rw [laid_cons, next_of_visible rfl visible, code,
    ← breaks_eq_lineStart unit depth previous lexeme closes]
  have space : Piece.space.text unit = [.ofChar ' '] := rfl
  by_cases colon : c.mark = .colon <;> simp [colon, shown, space]

/-- Atoms, strings and comments start with a symbol that neither closes a container nor needs a
space after it. -/
theorem laid_content (lexeme : Lexeme) {c : CodePoint}
    (content : c.mark = .quote ∨ c.mark = .hash ∨ c.mark = .ordinary)
    (other : lexeme.mark = .ordinary) (rest : Text) :
    (between depth (Lexeme.markBefore previous)).laid unit (c :: rest) =
      Lexeme.lineStart unit (lexeme.lineDepth? depth previous) ++
        c :: ((between depth (Lexeme.markBefore previous)).afterMark c.mark).laid unit rest := by
  have visible : c.mark ≠ .blank := by
    rcases content with mark | mark | mark <;> simp [mark]
  have closes : lexeme.mark = .closer ↔ c.mark = .closer := by
    rcases content with mark | mark | mark <;> simp [mark, other]
  have uncolon : c.mark ≠ .colon := by
    rcases content with mark | mark | mark <;> simp [mark]
  rw [laid_visible unit depth previous lexeme visible closes, if_neg uncolon, List.nil_append]

end Steps

/-- From a state between two lexemes, layout writes what the rules say. -/
theorem laid_between (unit : Text) (depth : Nat) (previous : Option Lexeme) (text : Text) :
    (between depth (Lexeme.markBefore previous)).laid unit text =
      Lexeme.layoutAt unit depth previous text := by
  induction text using Text.lexicalInduction generalizing depth previous with
  | nil =>
      rw [Lexeme.layoutAt_nil]
      rfl
  | blank c rest mark later =>
      rw [laid_cons, next_of_blank rfl mark, Lexeme.layoutAt_blank unit depth previous mark]
      exact later depth previous
  | ordinary c rest mark later =>
      rw [laid_content unit depth previous ⟨.atom, [c]⟩ (.inr (.inr mark)) rfl, mark,
        afterMark_ordinary, Lexeme.layoutAt_ordinary unit depth previous mark]
      rw [← later depth (some ⟨.atom, [c]⟩)]
      rfl
  | punctuation c rest mark later =>
      have visible : c.mark ≠ .blank := by
        intro blank
        rw [blank] at mark
        cases mark
      rw [laid_visible unit depth previous ⟨.punctuation, [c]⟩ visible Iff.rfl,
        afterMark_punctuation _ _ mark, Lexeme.layoutAt_punctuation unit depth previous mark]
      rw [← later _ (some ⟨.punctuation, [c]⟩)]
      rfl
  | closedString c body rest mark closed later =>
      rw [laid_content unit depth previous ⟨.string, c :: body⟩ (.inl mark) rfl, mark,
        afterMark_quote, laid_append, laid, traceText_closedBody _ _ closed, text_copies,
        Lexeme.layoutAt_closedString unit depth previous mark closed]
      rw [← later depth (some ⟨.string, c :: body⟩)]
      rfl
  | openString c body mark unclosed =>
      rw [laid_content unit depth previous ⟨.string, c :: body⟩ (.inl mark) rfl, mark,
        afterMark_quote, laid, traceText_openBody _ _ unclosed, text_copies,
        Lexeme.layoutAt_openString unit depth previous mark unclosed]
  | comment c run rest mark line later =>
      rw [laid_content unit depth previous ⟨.comment, c :: run⟩ (.inr (.inl mark)) rfl, mark,
        afterMark_hash, laid_append, laid, traceText_oneLine _ _ line, text_copies, laid_cons,
        CodePoint.code_newline, next_newline,
        Lexeme.layoutAt_comment unit depth previous mark line]
      rw [← later depth (some ⟨.comment, c :: run⟩)]
      rfl
  | lastComment c run mark line =>
      rw [laid_content unit depth previous ⟨.comment, c :: run⟩ (.inr (.inl mark)) rfl, mark,
        afterMark_hash, laid, traceText_oneLine _ _ line, text_copies,
        Lexeme.layoutAt_lastComment unit depth previous mark line]

/-- Layout of a text that stands alone follows the rules. -/
theorem laid_initial (unit text : Text) : initial.laid unit text = Lexeme.layout unit text := by
  rw [Lexeme.layout_eq_layoutAt, initial_eq_between]
  exact laid_between unit 0 none text

end State

/-! ### Reindenting -/

/-- What is returned for a text follows the rules, whatever memory there is. -/
theorem eq_layout_of_reindent {margin : Margin} {text output : Text}
    (returned : reindent margin text = .ok output) :
    output = Lexeme.layout margin.indentation.unit text := by
  rw [← State.laid_initial]
  exact (written_of_reindent returned).2

/-- A text that can be encoded is reindented, unless a break fails for want of memory. -/
theorem reindent_cases (margin : Margin) {text : Text}
    (unit : margin.indentation.unit.Encodable) (encodable : text.Encodable)
    (countable : text.length < 0x8000000000000000) :
    reindent margin text = .ok (Lexeme.layout margin.indentation.unit text) ∨
      margin.memory ≠ .unbounded ∧ ∃ error : BreakError, error.IsWantOfMemory ∧
        reindent margin text = .error (.step (.lineBreak error)) := by
  have shape := reindent_eq margin encodable
  cases fault : margin.firstBreakFault? (State.initial.traceText text).2 with
  | some error =>
      rw [fault] at shape
      obtain ⟨bounded, want⟩ := firstBreakFault?_of_encodable unit countable fault
      exact .inr ⟨bounded, error, want, shape⟩
  | none =>
      rw [fault] at shape
      refine .inl ?_
      rw [← State.laid_initial]
      exact shape

/-- With memory for every text, reindenting a text that can be encoded gives its layout. -/
theorem reindent_unbounded {indentation : Indentation} {text : Text}
    (unit : indentation.unit.Encodable) (encodable : text.Encodable)
    (countable : text.length < 0x8000000000000000) :
    reindent ⟨indentation, .unbounded⟩ text = .ok (Lexeme.layout indentation.unit text) := by
  rcases reindent_cases ⟨indentation, .unbounded⟩ unit encodable countable with
    returned | ⟨bounded, _⟩
  · exact returned
  · exact absurd rfl bounded

/-- Reindenting a text gives the layout of its lexemes by the rules.  With bounded memory, nothing
else is returned, and want of memory is all that reindenting can fail for. -/
theorem reindent_eq_layout {indentation : Indentation} {text : Text}
    (unit : indentation.unit.Encodable) (encodable : text.Encodable)
    (countable : text.length < 0x8000000000000000) :
    reindent ⟨indentation, .unbounded⟩ text = .ok (Lexeme.layout indentation.unit text) ∧
      ∀ memory, reindent ⟨indentation, memory⟩ text = .ok (Lexeme.layout indentation.unit text) ∨
        ∃ error : BreakError, error.IsWantOfMemory ∧
          reindent ⟨indentation, memory⟩ text = .error (.step (.lineBreak error)) := by
  refine ⟨reindent_unbounded unit encodable countable, ?_⟩
  intro memory
  rcases reindent_cases ⟨indentation, memory⟩ unit encodable countable with
    returned | ⟨_, failed⟩
  · exact .inl returned
  · exact .inr failed

/-- Escapes, a comment with a bracket in it, mismatched containers and an open string. -/
theorem reindent_eq_layout_of_mixed :
    Text.Encodable (Text.ofString "·") ∧
      Text.Encodable (Text.ofString "[a: \"é\\\"\" , b # y]\n c\x7d, \"\\") ∧
      (Text.ofString "[a: \"é\\\"\" , b # y]\n c\x7d, \"\\").length < 0x8000000000000000 ∧
      reindent ⟨.custom (Text.ofString "·"), .unbounded⟩
          (Text.ofString "[a: \"é\\\"\" , b # y]\n c\x7d, \"\\") =
        .ok (Text.ofString "[\n·a: \"é\\\"\",\n·b# y]\nc\n\x7d,\n\"\\") := by
  refine ⟨by decide, by decide, by decide, ?_⟩
  have rules : Lexeme.layout (Text.ofString "·")
        (Text.ofString "[a: \"é\\\"\" , b # y]\n c\x7d, \"\\") =
      Text.ofString "[\n·a: \"é\\\"\",\n·b# y]\nc\n\x7d,\n\"\\" := by decide +kernel
  rw [← rules]
  have unit : (Indentation.custom (Text.ofString "·")).unit.Encodable := by decide
  exact (reindent_eq_layout unit (by decide) (by decide)).1

end Reindent
