import Mathlib.Data.List.DropRight
import Reindent.Proofs.Content
import Reindent.Proofs.Rendering
import Reindent.Proofs.StreamContent

/-!
The state that layout ends in.

Layout reads bytes and keeps five fields.  What they hold at the end of a text can be told from the
lexemes of the text: how many openers wait for a closer, what the last lexeme is, whether it is a
string that nothing closes or a comment that nothing follows.  Along the grammar of the text, the
state between two lexemes is carried from each lexeme to the next (`traceText_between`).

Main statement: every field of the state is the one that the lexemes give, and the remarks on a
stream are those that they give (`endState_of_renders`).
-/

namespace Reindent

namespace Lexeme

/-! ### What the lexemes tell -/

/-- Whether there is a last lexeme, and it has a property. -/
def EndsWith (belongs : Lexeme → Prop) (lexemes : List Lexeme) : Prop :=
  ∃ last ∈ lexemes.getLast?, belongs last

theorem any_getLast?_iff {belongs : Lexeme → Prop} [DecidablePred belongs]
    {lexemes : List Lexeme} :
    lexemes.getLast?.any (fun last => decide (belongs last)) = true ↔ EndsWith belongs lexemes := by
  unfold EndsWith
  cases lexemes.getLast? <;> simp

instance (belongs : Lexeme → Prop) [DecidablePred belongs] (lexemes : List Lexeme) :
    Decidable (EndsWith belongs lexemes) :=
  decidable_of_iff _ any_getLast?_iff

/-- The openers that wait for a closer, the most recent one first, when some wait already.  A closer
of either kind takes the most recent one, and does nothing if there is none. -/
def unmatchedAfter (waiting : List Lexeme) : List Lexeme → List Lexeme
  | [] => waiting
  | lexeme :: rest =>
      match lexeme.mark with
      | .opener => unmatchedAfter (lexeme :: waiting) rest
      | .closer => unmatchedAfter waiting.tail rest
      | _ => unmatchedAfter waiting rest

/-- The openers among some lexemes that no closer takes. -/
def unmatched (lexemes : List Lexeme) : List Lexeme := unmatchedAfter [] lexemes

/-- How many backslashes a text ends in. -/
def trailingBackslashes (text : Text) : Nat :=
  (text.rtakeWhile fun c => c.code == Code.backslash).length

/-- What stands behind the last lexeme of a text. -/
def behindLast (text : Text) : Text :=
  ((scan text).rtakeWhile fun token => token.lexeme?.isNone).flatMap Token.text

/-- The depth after some lexemes. -/
def depthAfterAll (depth : Nat) (lexemes : List Lexeme) : Nat :=
  lexemes.foldl (fun depth lexeme => lexeme.depthAfter depth) depth

theorem depthAfterAll_cons (depth : Nat) (lexeme : Lexeme) (rest : List Lexeme) :
    depthAfterAll depth (lexeme :: rest) = depthAfterAll (lexeme.depthAfter depth) rest := rfl

/-- The depth counts the openers that wait. -/
theorem length_unmatchedAfter (waiting lexemes : List Lexeme) :
    (unmatchedAfter waiting lexemes).length = depthAfterAll waiting.length lexemes := by
  induction lexemes generalizing waiting with
  | nil => rfl
  | cons lexeme rest later =>
      rw [unmatchedAfter, depthAfterAll_cons]
      unfold depthAfter
      cases lexeme.mark with
      | opener => exact later (lexeme :: waiting)
      | closer =>
          have taken := later waiting.tail
          rw [List.length_tail] at taken
          exact taken
      | blank | quote | hash | colon | comma | ordinary => exact later waiting

theorem trailingBackslashes_append_singleton (front : Text) (c : CodePoint) :
    trailingBackslashes (front ++ [c]) =
      if c.code = Code.backslash then trailingBackslashes front + 1 else 0 := by
  unfold trailingBackslashes
  by_cases backslash : c.code = Code.backslash
  · rw [List.rtakeWhile_concat_pos _ _ _ (by simpa using backslash), if_pos backslash,
      List.length_append, List.length_singleton]
  · rw [List.rtakeWhile_concat_neg _ _ _ (by simpa using backslash), if_neg backslash,
      List.length_nil]

/-! ### Comments that nothing ends -/

theorem kind_getLast?_cons (first : Lexeme) (rest : List Lexeme) :
    (first :: rest).getLast?.map Lexeme.kind =
      some ((rest.getLast?.map Lexeme.kind).getD first.kind) := by
  rw [List.getLast?_cons]
  cases rest.getLast? <;> rfl

/-- Gluing keeps the kind of the last lexeme. -/
theorem kind_getLast?_glue (lexemes : List Lexeme) :
    (glue lexemes).getLast?.map Lexeme.kind = lexemes.getLast?.map Lexeme.kind := by
  induction lexemes with
  | nil => rfl
  | cons first rest later =>
      rw [glue, kind_getLast?_cons, ← later]
      cases glue rest with
      | nil => rfl
      | cons second others =>
          simp only
          split
          · rename_i both
            rw [kind_getLast?_cons, kind_getLast?_cons, both.2]
            rfl
          · rw [kind_getLast?_cons]

/-- Only a number sign starts a comment. -/
theorem mark_of_takeToken {c : CodePoint} {rest : Text} {comment : Lexeme}
    (kind : comment.kind = .comment) (taken : (takeToken c rest).1 = .lexeme comment) :
    c.mark = .hash := by
  unfold takeToken at taken
  split at taken
  case h_3 mark => exact mark
  all_goals cases taken <;> cases kind

/-- What follows a comment in a text starts with the newline that ends the comment. -/
theorem newline_after_comment {text : Text} {front behind : List Token} {comment : Lexeme}
    {token : Token} (kind : comment.kind = .comment)
    (cut : scan text = front ++ .lexeme comment :: token :: behind) :
    CodePoint.ofChar '\n' ∈ token.text := by
  induction text using scan.induct generalizing front with
  | case1 =>
      rw [scan_nil] at cut
      exact absurd cut.symm (List.append_ne_nil_of_right_ne_nil front (List.cons_ne_nil _ _))
  | case2 c rest _ =>
      rename_i later
      rw [scan_cons] at cut
      cases front with
      | cons first front =>
          rw [List.cons_append, List.cons.injEq] at cut
          exact later cut.2
      | nil =>
          rw [List.nil_append, List.cons.injEq] at cut
          obtain ⟨here, following⟩ := cut
          have mark := mark_of_takeToken kind here
          rcases line_cases rest with line | ⟨run, remaining, line, rfl⟩
          · rw [takeToken_comment mark (takeRun_oneLine line), scan_nil] at following
            cases following
          · rw [takeToken_comment mark (takeRun_oneLine_newline line remaining), scan_cons,
              takeToken_blank CodePoint.mark_newline, List.cons.injEq] at following
            rw [← following.1]
            exact List.mem_cons_self ..

/-- A text ends within a comment exactly if its last lexeme is a comment and no newline stands
behind it. -/
theorem endsInComment_iff (text : Text) :
    endsInComment text = true ↔
      EndsWith (fun last => last.kind = .comment) (ofText text) ∧ OneLine (behindLast text) := by
  have kinds : EndsWith (fun last => last.kind = .comment) (ofText text) ↔
      ((scan text).filterMap Token.lexeme?).getLast?.map Lexeme.kind = some .comment := by
    rw [← kind_getLast?_glue, ← ofText, Option.map_eq_some_iff]
    rfl
  have newline : ∀ front comment token behind, comment.kind = .comment →
      scan text = front ++ .lexeme comment :: token :: behind → .ofChar '\n' ∈ token.text :=
    fun front comment token behind => newline_after_comment
  rw [kinds, endsInComment, behindLast]
  -- The induction is on the tokens from the end, and only the newlines need the text.
  generalize scan text = tokens at newline
  induction tokens using List.reverseRecOn with
  | nil => simp
  | append_singleton tokens token before =>
      cases token with
      | lexeme last => simp [Token.lexeme?, OneLine]
      | blank run =>
          have shorter := before fun front comment token behind kind cut =>
            newline front comment token (behind ++ [.blank run]) kind (by rw [cut]; simp)
          simp only [List.getLast?_append, List.getLast?_singleton, Option.some_or,
            Bool.false_eq_true, false_iff]
          rw [List.rtakeWhile_concat_pos _ _ _ rfl]
          rintro ⟨last, line⟩
          rw [List.flatMap_append, List.flatMap_singleton] at line
          obtain ⟨inner, outer⟩ := List.forall_mem_append.mp line
          have ended := shorter.mpr ⟨by simpa [Token.lexeme?] using last, inner⟩
          split at ended
          · rename_i comment same
            obtain ⟨front, rfl⟩ := List.getLast?_eq_some_iff.mp same
            have inside : .ofChar '\n' ∈ run :=
              newline front comment (.blank run) [] (beq_iff_eq.mp ended) (by simp)
            exact outer _ inside CodePoint.code_newline
          · cases ended

end Lexeme

/-! ### The state along the grammar -/

open Lexeme

namespace State

/-- The state at the end of a text, told by the depth, the last lexeme and whether the text ends
within a comment. -/
def ending (depth : Nat) (last : Option Lexeme) (commented : Bool) : State where
  mode :=
    if last.any (fun lexeme => decide lexeme.IsOpen) then .string
    else if commented then .comment
    else .normal
  escapePending :=
    last.any fun lexeme =>
      decide (lexeme.IsOpen ∧ trailingBackslashes lexeme.text % 2 = 1)
  level := depth
  breakPending := decide (markBefore last = .opener ∨ markBefore last = .comma)
  openerPending := decide (markBefore last = .opener)

/-- The state at the end of a text that follows a lexeme at a depth. -/
def endingOf (depth : Nat) (previous : Option Lexeme) (text : Text) : State :=
  ending (depthAfterAll depth (ofText text)) ((ofText text).getLast?.or previous)
    (endsInComment text)

/-- A lexeme that is not an open string. -/
def Ended (previous : Option Lexeme) : Prop := ∀ lexeme ∈ previous, ¬lexeme.IsOpen

theorem ended_of_kind (lexeme : Lexeme) (other : lexeme.kind ≠ .string) : Ended (some lexeme) := by
  intro last same
  cases same
  exact not_isOpen_of_kind other

theorem ended_of_closed {c : CodePoint} {body : Text} (closed : ClosedBody body) :
    Ended (some ⟨.string, c :: body⟩) := by
  intro last same
  cases same
  exact fun unclosed => closed.not_open unclosed.2

/-- Behind a lexeme that is no open string, layout is between two lexemes. -/
theorem ending_of_ended {previous : Option Lexeme} (ended : Ended previous) (depth : Nat) :
    ending depth previous false = between depth (markBefore previous) := by
  cases previous with
  | none => rfl
  | some lexeme =>
      have closed : ¬lexeme.IsOpen := ended lexeme rfl
      simp [ending, between, closed]

/-- A comment that nothing ends leaves layout within it. -/
theorem ending_of_comment (depth : Nat) (text : Text) :
    ending depth (some ⟨.comment, text⟩) true = between depth .ordinary .comment := by
  have closed : ¬IsOpen ⟨.comment, text⟩ := not_isOpen_of_kind (by simp)
  simp [ending, between, closed, markBefore, mark]

/-- An open string leaves layout within it, after an escape if its backslashes are odd. -/
theorem ending_of_open {lexeme : Lexeme} (unclosed : lexeme.IsOpen) (depth : Nat)
    (commented : Bool) :
    ending depth (some lexeme) commented =
      { between depth .ordinary .string with
        escapePending := decide (trailingBackslashes lexeme.text % 2 = 1) } := by
  have plain : lexeme.mark = .ordinary := by
    rw [mark, unclosed.1]
  simp [ending, between, unclosed, markBefore, plain]

/-- All atoms are alike. -/
theorem ending_of_atom (depth : Nat) (first second : Text) (commented : Bool) :
    ending depth (some ⟨.atom, first⟩) commented =
      ending depth (some ⟨.atom, second⟩) commented := by
  have closed : ∀ text, ¬IsOpen ⟨.atom, text⟩ := fun text => not_isOpen_of_kind (by simp)
  simp [ending, closed, markBefore, mark]

theorem getLast?_cons_or (lexeme : Lexeme) (rest : List Lexeme) (previous : Option Lexeme) :
    (lexeme :: rest).getLast?.or previous = rest.getLast?.or (some lexeme) := by
  rw [List.getLast?_cons]
  cases rest.getLast? <;> rfl

section Steps

variable (depth : Nat) (previous : Option Lexeme)

theorem endingOf_nil (ended : Ended previous) :
    endingOf depth previous [] = between depth (markBefore previous) := by
  rw [endingOf, ofText_nil, endsInComment_nil]
  exact ending_of_ended ended depth

theorem endingOf_blank {c : CodePoint} (mark : c.mark = .blank) (rest : Text) :
    endingOf depth previous (c :: rest) = endingOf depth previous rest := by
  rw [endingOf, ofText_blank mark, endsInComment_run (.inl mark)]
  rfl

theorem endingOf_ordinary {c : CodePoint} (mark : c.mark = .ordinary) (rest : Text) :
    endingOf depth previous (c :: rest) = endingOf depth (some ⟨.atom, [c]⟩) rest := by
  unfold endingOf
  rw [ofText_ordinary mark, endsInComment_run (.inr mark)]
  cases ofText rest with
  | nil => rfl
  | cons first others =>
      by_cases joins : first.kind = .atom
      · obtain ⟨kind, text⟩ := first
        cases joins
        rw [consAtom, if_pos rfl, getLast?_cons_or, getLast?_cons_or]
        cases others.getLast? with
        | none => exact ending_of_atom _ _ _ _
        | some last => rfl
      · rw [consAtom, if_neg joins, getLast?_cons_or]
        rfl

/-- A lexeme that is no atom is passed, and the text goes on behind it. -/
theorem endingOf_cons {front rest : Text} {lexeme : Lexeme}
    (lexemes : ofText front = lexeme :: ofText rest)
    (comment : endsInComment front = endsInComment rest) :
    endingOf depth previous front = endingOf (lexeme.depthAfter depth) (some lexeme) rest := by
  rw [endingOf, lexemes, comment, getLast?_cons_or, depthAfterAll_cons]
  rfl

/-- A lexeme that the text ends with. -/
theorem endingOf_last {text : Text} {lexeme : Lexeme} (lexemes : ofText text = [lexeme]) :
    endingOf depth previous text =
      ending (lexeme.depthAfter depth) (some lexeme) (endsInComment text) := by
  rw [endingOf, lexemes]
  rfl

end Steps

/-- An open string ends after an escape exactly if the backslashes at its end are odd; `front` is
what stands before its body. -/
theorem traceText_openBody_state (depth : Nat) (before : Mark) {body : Text}
    (unclosed : OpenBody body) (front : Text) (even : trailingBackslashes front % 2 = 0) :
    ((between depth before .string).traceText body).1 =
      { between depth before .string with
        escapePending := decide (trailingBackslashes (front ++ body) % 2 = 1) } := by
  induction unclosed generalizing front with
  | nil =>
      rw [List.append_nil, even]
      rfl
  | @dangling c backslash =>
      have odd : (trailingBackslashes front + 1) % 2 = 1 := by omega
      rw [traceText_cons, next_backslash depth before backslash,
        trailingBackslashes_append_singleton, if_pos backslash, odd]
      rfl
  | @escaped c d body backslash _ later =>
      have passed : trailingBackslashes (front ++ [c] ++ [d]) % 2 = 0 := by
        rw [trailingBackslashes_append_singleton, trailingBackslashes_append_singleton,
          if_pos backslash]
        split <;> omega
      have whole := later (front ++ [c] ++ [d]) passed
      rw [traceText_cons, next_backslash depth before backslash, traceText_cons, next_escaped]
      simpa using whole
  | @plain c body unquoted unescaped _ later =>
      have passed : trailingBackslashes (front ++ [c]) % 2 = 0 := by
        rw [trailingBackslashes_append_singleton, if_neg unescaped]
      have whole := later (front ++ [c]) passed
      rw [traceText_cons, next_plain depth before unquoted unescaped]
      simpa using whole

/-- The first symbol of a lexeme leads to the state after its mark. -/
theorem traceText_visible {state : State} (mode : state.mode = .normal) {c : CodePoint}
    (visible : c.mark ≠ .blank) (rest : Text) :
    (state.traceText (c :: rest)).1 = ((state.afterMark c.mark).traceText rest).1 := by
  rw [traceText_cons, next_of_visible mode visible]
  rfl

/-- From a state between two lexemes, layout ends in the state that the lexemes of the text
give. -/
theorem traceText_between (depth : Nat) {previous : Option Lexeme} (ended : Ended previous)
    (text : Text) :
    ((between depth (markBefore previous)).traceText text).1 = endingOf depth previous text := by
  induction text using Text.lexicalInduction generalizing depth previous with
  | nil =>
      rw [endingOf_nil depth previous ended]
      rfl
  | blank c rest mark later =>
      rw [traceText_cons, next_of_blank rfl mark, endingOf_blank depth previous mark]
      exact later depth ended
  | ordinary c rest mark later =>
      rw [traceText_visible rfl (by simp [mark]), mark, afterMark_ordinary,
        endingOf_ordinary depth previous mark]
      exact later depth (ended_of_kind ⟨.atom, [c]⟩ (by simp))
  | punctuation c rest mark later =>
      have visible : c.mark ≠ .blank := by
        intro blank
        rw [blank] at mark
        cases mark
      rw [traceText_visible rfl visible, afterMark_punctuation _ _ mark,
        endingOf_cons depth previous (ofText_punctuation mark rest)
          (endsInComment_punctuation mark rest)]
      exact later _ (ended_of_kind ⟨.punctuation, [c]⟩ (by simp))
  | closedString c body rest mark closed later =>
      rw [traceText_visible rfl (by simp [mark]), mark, afterMark_quote, traceText_append,
        traceText_closedBody _ _ closed,
        endingOf_cons depth previous (ofText_closedString mark closed rest)
          (endsInComment_closedString mark closed rest)]
      exact later depth (ended_of_closed closed)
  | openString c body mark unclosed =>
      have even : trailingBackslashes [c] % 2 = 0 := by
        have quote : c.code ≠ Code.backslash := by
          intro backslash
          rw [CodePoint.mark, backslash] at mark
          cases mark
        rw [← List.nil_append [c], trailingBackslashes_append_singleton, if_neg quote]
      have isOpen : IsOpen ⟨.string, c :: body⟩ := ⟨rfl, unclosed⟩
      rw [traceText_visible rfl (by simp [mark]), mark, afterMark_quote,
        traceText_openBody_state _ _ unclosed [c] even,
        endingOf_last depth previous (ofText_openString mark unclosed), ending_of_open isOpen]
      rfl
  | comment c run rest mark line later =>
      rw [traceText_visible rfl (by simp [mark]), mark, afterMark_hash, traceText_append,
        traceText_oneLine _ _ line, traceText_cons, CodePoint.code_newline, next_newline,
        endingOf_cons depth previous (ofText_comment mark line rest)
          (endsInComment_comment mark line rest)]
      exact later depth (ended_of_kind ⟨.comment, c :: run⟩ (by simp))
  | lastComment c run mark line =>
      rw [traceText_visible rfl (by simp [mark]), mark, afterMark_hash,
        traceText_oneLine _ _ line, endingOf_last depth previous (ofText_lastComment mark line),
        endsInComment_lastComment mark line, ending_of_comment]
      rfl

theorem trace_initial (text : Text) :
    (initial.trace (Utf8.bytesOfText text)).1 = endingOf 0 none text := by
  have ended : Ended none := fun lexeme member => nomatch member
  rw [trace_bytesOfText, initial_eq_between]
  exact traceText_between 0 ended text

/-- A state whose fields are all told by the lexemes of a text. -/
structure EndOf (state : State) (text : Text) : Prop where
  level : state.level = (unmatched (ofText text)).length
  string : state.mode = .string ↔ EndsWith IsOpen (ofText text)
  comment : state.mode = .comment ↔
    EndsWith (fun last => last.kind = .comment) (ofText text) ∧ OneLine (behindLast text)
  escapePending : state.escapePending = true ↔
    EndsWith (fun last => last.IsOpen ∧ trailingBackslashes last.text % 2 = 1) (ofText text)
  breakPending : state.breakPending = true ↔
    EndsWith (fun last => last.mark = .opener ∨ last.mark = .comma) (ofText text)
  openerPending : state.openerPending = true ↔
    EndsWith (fun last => last.mark = .opener) (ofText text)

/-- The mark before the end is the one of the last lexeme. -/
theorem markBefore_getLast?_iff (belongs : Mark → Prop) (special : ¬belongs .ordinary)
    (lexemes : List Lexeme) :
    belongs (markBefore lexemes.getLast?) ↔ EndsWith (fun last => belongs last.mark) lexemes := by
  unfold EndsWith markBefore
  cases lexemes.getLast? with
  | none => simpa using special
  | some last => simp

/-- A text that ends within a comment does not end within a string. -/
theorem any_isOpen_of_endsInComment {text : Text} (commented : endsInComment text = true) :
    (ofText text).getLast?.any (fun last => decide last.IsOpen) = false := by
  obtain ⟨⟨last, here, kind⟩, -⟩ := (endsInComment_iff text).mp commented
  have closed : ¬last.IsOpen := not_isOpen_of_kind (by simp [kind])
  rw [Option.mem_def.mp here]
  simpa using closed

theorem endOf_endingOf (text : Text) : (endingOf 0 none text).EndOf text := by
  have whole : (ofText text).getLast?.or none = (ofText text).getLast? := Option.or_none
  unfold endingOf
  rw [whole]
  constructor
  · exact congrArg Int.ofNat (length_unmatchedAfter [] (ofText text)).symm
  · rw [← any_getLast?_iff]
    simp only [ending]
    split
    · simp [*]
    · split <;> simp [*]
  · rw [← endsInComment_iff]
    by_cases commented : endsInComment text = true
    · simp [ending, any_isOpen_of_endsInComment commented, commented]
    · simp only [ending, commented]
      split <;> simp
  · exact any_getLast?_iff
  · simp only [ending, decide_eq_true_iff]
    exact markBefore_getLast?_iff (fun mark => mark = .opener ∨ mark = .comma) (by decide) _
  · simp only [ending, decide_eq_true_iff]
    exact markBefore_getLast?_iff (fun mark => mark = .opener) (by decide) _

end State

/-- The log lines at the end of a stream, told by its lexemes. -/
def Lexeme.endMessages (lexemes : List Lexeme) : List Text :=
  (if (unmatched lexemes).length = 0 then []
    else [Text.ofString "end of stream with " ++ Text.ofNat (unmatched lexemes).length ++
      Text.ofString " unclosed container(s)"]) ++
    if EndsWith IsOpen lexemes then [Text.ofString "end of stream inside a string"] else []

theorem State.EndOf.messages {state : State} {text : Text} (fields : state.EndOf text) :
    state.endNotes.map Note.message = endMessages (ofText text) := by
  have numeral : ∀ count : Nat, Text.ofInt count = Text.ofNat count := fun _ => rfl
  unfold endNotes endMessages
  rw [fields.level]
  by_cases balanced : (unmatched (ofText text)).length = 0
  · by_cases unclosed : EndsWith IsOpen (ofText text)
    · simp [balanced, unclosed, fields.string.mpr unclosed, Note.message]
    · have closed : ¬state.mode = .string := fun mode => unclosed (fields.string.mp mode)
      simp [balanced, unclosed, closed]
  · by_cases unclosed : EndsWith IsOpen (ofText text)
    · simp [balanced, unclosed, fields.string.mpr unclosed, Note.message, numeral]
    · have closed : ¬state.mode = .string := fun mode => unclosed (fields.string.mp mode)
      simp [balanced, unclosed, closed, Note.message, numeral]

/-- At the end of a text whose line breaks can all be written, every field of the state is told by
the lexemes of the text, and so are the log lines for every stream that delivers the text. -/
theorem endState_of_renders {margin : Margin} {text : Text} {bytes : Bytes}
    (encoded : Utf8.encode text = .ok bytes) (renders : margin.Renders .initial bytes) :
    (∃ final written, run margin .initial bytes = .ok (final, written) ∧ final.EndOf text) ∧
      ∀ source : Source, source.content = bytes →
        (transfer margin {} source).notes.map Note.message = endMessages (ofText text) := by
  have encodable := Utf8.encodable_of_encode encoded
  rw [Utf8.encode_of_encodable encodable] at encoded
  cases encoded
  have fields : (State.initial.trace (Utf8.bytesOfText text)).1.EndOf text := by
    rw [State.trace_initial]
    exact State.endOf_endingOf text
  refine ⟨⟨_, _, run_of_renders renders, fields⟩, ?_⟩
  intro source fed
  rw [transfer_notes, fed, run_of_renders renders]
  exact fields.messages

/-- A closer too many, mismatched containers, and a string that ends after three backslashes, cut
within its only symbol outside ASCII. -/
theorem endState_of_renders_of_open_string :
    Utf8.encode (Text.ofString "]\x7b[a\x7d, \"é\\\\\\") =
        .ok (Utf8.bytesOfText (Text.ofString "]\x7b[a\x7d, \"é\\\\\\")) ∧
      (⟨.standard, .ordinary⟩ : Margin).Renders .initial
        (Utf8.bytesOfText (Text.ofString "]\x7b[a\x7d, \"é\\\\\\")) ∧
      (∃ final written, run ⟨.standard, .ordinary⟩ .initial
          (Utf8.bytesOfText (Text.ofString "]\x7b[a\x7d, \"é\\\\\\")) = .ok (final, written) ∧
        final.escapePending = true) ∧
      (transfer ⟨.standard, .ordinary⟩ {}
          [some [0x5D, 0x7B, 0x5B, 0x61, 0x7D, 0x2C, 0x20, 0x22, 0xC3],
            some [0xA9, 0x5C, 0x5C, 0x5C]]).notes.map Note.message =
        [Text.ofString "end of stream with 1 unclosed container(s)",
          Text.ofString "end of stream inside a string"] := by
  have encoded : Utf8.encode (Text.ofString "]\x7b[a\x7d, \"é\\\\\\") =
      .ok (Utf8.bytesOfText (Text.ofString "]\x7b[a\x7d, \"é\\\\\\")) := by decide +kernel
  have renders : (⟨.standard, .ordinary⟩ : Margin).Renders .initial
      (Utf8.bytesOfText (Text.ofString "]\x7b[a\x7d, \"é\\\\\\")) :=
    Margin.findSome?_fault?_trace.mp (by decide +kernel)
  obtain ⟨⟨final, written, ran, fields⟩, messages⟩ := endState_of_renders encoded renders
  have odd : EndsWith (fun last => last.IsOpen ∧ trailingBackslashes last.text % 2 = 1)
      (ofText (Text.ofString "]\x7b[a\x7d, \"é\\\\\\")) := by decide +kernel
  refine ⟨encoded, renders, ⟨final, written, ran, fields.escapePending.mpr odd⟩, ?_⟩
  rw [messages _ (by decide +kernel)]
  decide +kernel

end Reindent
