import Reindent.Lexeme.Comparison
import Reindent.Proofs.LayoutRules
import Reindent.Proofs.Whitespace

/-!
Layout and content.

With a unit of whitespace, layout keeps the lexemes of every text, and two texts have the same
lexemes exactly if layout gives the same text for both; a newline after each of them makes no
difference to this but that comments at the very end get the one that they lack.  With any other
unit, layout puts visible symbols into the text, and some text changes its lexemes.

Main statements: `isBlank_iff_content_kept` and `same_content_iff_same_layout`.
-/

namespace Reindent

namespace Lexeme

/-! ### A blank unit keeps the lexemes -/

theorem ofText_blanks {row : Text} (blank : row.Blank) (rest : Text) :
    ofText (row ++ rest) = ofText rest := by
  induction row with
  | nil => rfl
  | cons c row later =>
      obtain ⟨first, others⟩ := List.forall_mem_cons.mp blank
      rw [List.cons_append, ofText_blank first]
      exact later others

theorem blank_lineStart {unit : Text} (blank : unit.Blank) (line : Option Nat) :
    Text.Blank (lineStart unit line) := by
  cases line with
  | none =>
      intro c member
      cases member
  | some depth =>
      exact List.forall_mem_cons.mpr
        ⟨CodePoint.mark_newline, blank.repeated depth⟩

theorem blank_colonSpace (colon : Prop) [Decidable colon] :
    Text.Blank (if colon then [.ofChar ' '] else []) := by
  intro c member
  split at member
  · rw [List.mem_singleton.mp member]
    decide
  · cases member

/-- A text that is laid out with whitespace has the lexemes that it had. -/
theorem ofText_layoutAt {unit : Text} (blank : unit.Blank) (depth : Nat)
    (previous : Option Lexeme) (text : Text) :
    ofText (layoutAt unit depth previous text) = ofText text := by
  induction text using Text.lexicalInduction generalizing depth previous with
  | nil => rw [layoutAt_nil]
  | blank c rest mark later =>
      rw [layoutAt_blank unit depth previous mark, later, ofText_blank mark]
  | ordinary c rest mark later =>
      rw [layoutAt_ordinary unit depth previous mark, ofText_blanks (blank_lineStart blank _),
        ofText_ordinary mark, later, ofText_ordinary mark]
  | punctuation c rest mark later =>
      rw [layoutAt_punctuation unit depth previous mark, ofText_blanks (blank_lineStart blank _),
        ofText_punctuation mark, ofText_blanks (blank_colonSpace _), later,
        ofText_punctuation mark]
  | closedString c body rest mark closed later =>
      rw [layoutAt_closedString unit depth previous mark closed,
        ofText_blanks (blank_lineStart blank _), ofText_closedString mark closed, later,
        ofText_closedString mark closed]
  | openString c body mark unclosed =>
      rw [layoutAt_openString unit depth previous mark unclosed,
        ofText_blanks (blank_lineStart blank _)]
  | comment c run rest mark line later =>
      rw [layoutAt_comment unit depth previous mark line,
        ofText_blanks (blank_lineStart blank _), ofText_comment mark line, later,
        ofText_comment mark line]
  | lastComment c run mark line =>
      rw [layoutAt_lastComment unit depth previous mark line,
        ofText_blanks (blank_lineStart blank _)]

theorem ofText_layout {unit : Text} (blank : unit.Blank) (text : Text) :
    ofText (layout unit text) = ofText text :=
  ofText_layoutAt blank 0 none text

/-! ### Any other unit is seen -/

/-- The symbols of a text that are not whitespace. -/
def visible (text : Text) : Text := text.filter fun c => c.mark != .blank

/-- Every visible symbol is in some lexeme, in order. -/
theorem visible_flatMap_ofText (text : Text) :
    visible ((ofText text).flatMap Lexeme.text) = visible text := by
  have joined : ∀ (c : CodePoint) (lexemes : List Lexeme),
      (consAtom c lexemes).flatMap Lexeme.text = c :: lexemes.flatMap Lexeme.text := by
    intro c lexemes
    cases lexemes with
    | nil => rfl
    | cons first rest =>
        by_cases joins : first.kind = .atom <;> simp [consAtom, joins]
  have newline : (CodePoint.ofChar '\n').mark = .blank := CodePoint.mark_newline
  unfold visible
  induction text using Text.lexicalInduction with
  | nil => rw [ofText_nil]; rfl
  | blank c rest mark later => simp [ofText_blank mark, mark, later]
  | ordinary c rest mark later => simp [ofText_ordinary mark, joined, later, List.filter_cons]
  | punctuation c rest mark later => simp [ofText_punctuation mark, later, List.filter_cons]
  | closedString c body rest mark closed later =>
      simp [ofText_closedString mark closed, later, List.filter_cons]
  | openString c body mark unclosed => simp [ofText_openString mark unclosed]
  | comment c run rest mark line later =>
      simp [ofText_comment mark line, later, List.filter_cons, newline]
  | lastComment c run mark line => simp [ofText_lastComment mark line]

/-- The text whose second lexeme is the first to be indented. -/
def indentedOnce : Text := [.ofChar '[', .ofChar 'a']

theorem layout_indentedOnce (unit : Text) :
    layout unit indentedOnce = .ofChar '[' :: .ofChar '\n' :: (unit ++ [.ofChar 'a']) := by
  have bracket : (CodePoint.ofChar '[').mark.isPunctuation = true := by decide
  have letter : (CodePoint.ofChar 'a').mark = .ordinary := by decide
  have first : lineDepth? ⟨.punctuation, [.ofChar '[']⟩ 0 none = none := by decide
  have depth : depthAfter ⟨.punctuation, [.ofChar '[']⟩ 0 = 1 := by decide
  have second : lineDepth? ⟨.atom, [.ofChar 'a']⟩ 1 (some ⟨.punctuation, [.ofChar '[']⟩) =
      some 1 := by decide
  have uncolon : (CodePoint.ofChar '[').mark ≠ .colon := by decide
  rw [layout_eq_layoutAt, indentedOnce, layoutAt_punctuation unit 0 none bracket, first, depth,
    if_neg uncolon, layoutAt_ordinary unit 1 _ letter, second, layoutAt_nil]
  simp [lineStart]

/-- A unit that keeps the lexemes of this text is blank. -/
theorem blank_of_ofText_layout {unit : Text}
    (kept : ofText (layout unit indentedOnce) = ofText indentedOnce) : unit.Blank := by
  have seen : visible (layout unit indentedOnce) = visible indentedOnce := by
    rw [← visible_flatMap_ofText, kept, visible_flatMap_ofText]
  have bracket : (CodePoint.ofChar '[').mark ≠ .blank := by decide
  have newline : (CodePoint.ofChar '\n').mark = .blank := CodePoint.mark_newline
  rw [layout_indentedOnce] at seen
  have hidden : ∀ c ∈ unit, c.mark = .blank := by
    simpa [visible, indentedOnce, bracket, newline] using seen
  exact hidden

/-! ### A newline at the end -/

/-- A string that nothing closes. -/
def IsOpen (lexeme : Lexeme) : Prop := lexeme.kind = .string ∧ OpenBody lexeme.text.tail

instance (lexeme : Lexeme) : Decidable lexeme.IsOpen :=
  inferInstanceAs (Decidable (lexeme.kind = .string ∧ OpenBody lexeme.text.tail))

/-- The last lexeme of a text once a newline follows: an open string takes it. -/
def takeNewline (lexeme : Lexeme) : Lexeme :=
  if lexeme.IsOpen then ⟨lexeme.kind, lexeme.text ++ [.ofChar '\n']⟩ else lexeme

/-- The lexemes of a text once a newline follows. -/
def withNewline : List Lexeme → List Lexeme
  | [] => []
  | [last] => [last.takeNewline]
  | first :: second :: rest => first :: withNewline (second :: rest)

theorem takeNewline_of_not_open {lexeme : Lexeme} (closed : ¬lexeme.IsOpen) :
    lexeme.takeNewline = lexeme := if_neg closed

theorem kind_takeNewline (lexeme : Lexeme) : lexeme.takeNewline.kind = lexeme.kind := by
  unfold takeNewline
  split <;> rfl

theorem withNewline_cons {first : Lexeme} (closed : ¬first.IsOpen) (rest : List Lexeme) :
    withNewline (first :: rest) = first :: withNewline rest := by
  cases rest with
  | nil => exact congrArg (fun last => [last]) (takeNewline_of_not_open closed)
  | cons second others => rfl

theorem not_isOpen_of_kind {lexeme : Lexeme} (other : lexeme.kind ≠ .string) : ¬lexeme.IsOpen :=
  fun unclosed => other unclosed.1

theorem withNewline_consAtom (c : CodePoint) (lexemes : List Lexeme) :
    withNewline (consAtom c lexemes) = consAtom c (withNewline lexemes) := by
  have atom : ∀ text, ¬IsOpen ⟨.atom, text⟩ := fun text => not_isOpen_of_kind (by simp)
  cases lexemes with
  | nil => rw [consAtom, withNewline_cons (atom _)]; rfl
  | cons first rest =>
      by_cases joins : first.kind = .atom
      · have closed : ¬first.IsOpen := not_isOpen_of_kind (by rw [joins]; simp)
        rw [withNewline_cons closed]
        simp only [consAtom, if_pos joins]
        exact withNewline_cons (atom _) rest
      · -- The atom stands alone, and what follows it is no atom after the newline either.
        simp only [consAtom, if_neg joins]
        rw [withNewline_cons (atom _)]
        cases rest with
        | nil => simp [withNewline, kind_takeNewline, joins]
        | cons second others => simp [withNewline, joins]

theorem ofText_append_newline (text : Text) :
    ofText (text ++ [.ofChar '\n']) = withNewline (ofText text) := by
  induction text using Text.lexicalInduction with
  | nil =>
      rw [List.nil_append, ofText_blank CodePoint.mark_newline, ofText_nil]
      rfl
  | blank c rest mark later =>
      rw [List.cons_append, ofText_blank mark, later, ofText_blank mark]
  | ordinary c rest mark later =>
      rw [List.cons_append, ofText_ordinary mark, later, ofText_ordinary mark,
        withNewline_consAtom]
  | punctuation c rest mark later =>
      rw [List.cons_append, ofText_punctuation mark, later, ofText_punctuation mark,
        withNewline_cons (not_isOpen_of_kind (by simp))]
  | closedString c body rest mark closed later =>
      have whole : ¬IsOpen ⟨.string, c :: body⟩ := fun unclosed => closed.not_open unclosed.2
      rw [List.cons_append, List.append_assoc, ofText_closedString mark closed, later,
        ofText_closedString mark closed, withNewline_cons whole]
  | openString c body mark unclosed =>
      have stays : IsOpen ⟨.string, c :: body⟩ := ⟨rfl, unclosed⟩
      rw [List.cons_append, ofText_openString mark unclosed.append_newline,
        ofText_openString mark unclosed, withNewline, takeNewline, if_pos stays]
      rfl
  | comment c run rest mark line later =>
      rw [List.cons_append, List.append_assoc, List.cons_append, ofText_comment mark line, later,
        ofText_comment mark line, withNewline_cons (not_isOpen_of_kind (by simp))]
  | lastComment c run mark line =>
      rw [List.cons_append, ofText_comment mark line, ofText_lastComment mark line, ofText_nil,
        withNewline_cons (not_isOpen_of_kind (by simp))]
      rfl

/-- A newline can be taken away from an open string again. -/
theorem takeNewline_injective : Function.Injective takeNewline := by
  -- An open string that took its newline is still open, so it is not one that was closed.
  have apart : ∀ first second : Lexeme, first.IsOpen → ¬second.IsOpen →
      (⟨first.kind, first.text ++ [.ofChar '\n']⟩ : Lexeme) ≠ second := by
    intro first second unclosed closed same
    apply closed
    rw [← same]
    refine ⟨unclosed.1, ?_⟩
    cases text : first.text with
    | nil => exact .nil
    | cons c body =>
        have tail : OpenBody body := by
          have inside := unclosed.2
          rw [text] at inside
          exact inside
        exact tail.append_newline
  intro first second same
  unfold takeNewline at same
  by_cases one : first.IsOpen
  · by_cases other : second.IsOpen
    · rw [if_pos one, if_pos other] at same
      obtain ⟨kind, text⟩ := first
      obtain ⟨kind', text'⟩ := second
      simpa using same
    · rw [if_pos one, if_neg other] at same
      exact absurd same (apart first second one other)
  · by_cases other : second.IsOpen
    · rw [if_neg one, if_pos other] at same
      exact absurd same.symm (apart second first other one)
    · rw [if_neg one, if_neg other] at same
      exact same

theorem length_withNewline (lexemes : List Lexeme) :
    (withNewline lexemes).length = lexemes.length := by
  fun_induction withNewline lexemes with
  | case1 => rfl
  | case2 => rfl
  | case3 first second rest counted =>
      rw [List.length_cons, counted]
      rfl

theorem withNewline_injective : Function.Injective withNewline := by
  intro first second same
  have length : first.length = second.length := by
    rw [← length_withNewline, same, length_withNewline]
  induction first generalizing second with
  | nil => exact (List.length_eq_zero_iff.mp length.symm).symm
  | cons one rest later =>
      cases second with
      | nil => cases length
      | cons other others =>
          cases rest with
          | nil =>
              cases others with
              | nil =>
                  simp only [withNewline, List.cons.injEq, and_true] at same
                  rw [takeNewline_injective same]
              | cons => simp at length
          | cons next rest =>
              cases others with
              | nil => simp at length
              | cons following others =>
                  simp only [withNewline, List.cons.injEq] at same
                  rw [same.1, later same.2 (by simpa using length)]

theorem endsInComment_append_newline (text : Text) :
    endsInComment (text ++ [.ofChar '\n']) = false := by
  induction text using Text.lexicalInduction with
  | nil =>
      rw [List.nil_append, endsInComment_run (.inl CodePoint.mark_newline), endsInComment_nil]
  | blank c rest mark later => rw [List.cons_append, endsInComment_run (.inl mark), later]
  | ordinary c rest mark later => rw [List.cons_append, endsInComment_run (.inr mark), later]
  | punctuation c rest mark later =>
      rw [List.cons_append, endsInComment_punctuation mark, later]
  | closedString c body rest mark closed later =>
      rw [List.cons_append, List.append_assoc, endsInComment_closedString mark closed, later]
  | openString c body mark unclosed =>
      rw [List.cons_append, endsInComment_openString mark unclosed.append_newline]
  | comment c run rest mark line later =>
      rw [List.cons_append, List.append_assoc, List.cons_append, endsInComment_comment mark line,
        later]
  | lastComment c run mark line =>
      rw [List.cons_append, endsInComment_comment mark line, endsInComment_nil]

/-- Texts that end in a newline are laid out alike exactly if they have the same lexemes without
it. -/
theorem layout_append_newline_eq_iff {unit : Text} (blank : unit.Blank) (first second : Text) :
    layout unit (first ++ [.ofChar '\n']) = layout unit (second ++ [.ofChar '\n']) ↔
      ofText first = ofText second := by
  constructor
  · intro same
    apply withNewline_injective
    rw [← ofText_append_newline, ← ofText_append_newline, ← ofText_layout blank, same,
      ofText_layout blank]
  · intro same
    unfold layout
    rw [ofText_append_newline, ofText_append_newline, same, endsInComment_append_newline,
      endsInComment_append_newline]

end Lexeme

/-! ### Comparisons -/

theorem Comparison.difference_eq_none_iff {source formatted : Text} :
    (Comparison.ofTexts source formatted).difference = none ↔
      Lexeme.ofText source = Lexeme.ofText formatted :=
  Difference.find?_eq_none_iff

/-- With a blank unit, no text that is reindented differs in content. -/
theorem content_kept {margin : Margin} (blank : margin.indentation.isBlank = true)
    {text output : Text} (returned : reindent margin text = .ok output) :
    (Comparison.ofTexts text output).difference = none := by
  rw [Comparison.difference_eq_none_iff, eq_layout_of_reindent returned,
    Lexeme.ofText_layout (Indentation.isBlank_iff.mp blank)]

/-- The blank units are exactly those with which reindenting never changes the content, and with
these it does not for any memory either. -/
theorem isBlank_iff_content_kept {indentation : Indentation}
    (unit : indentation.unit.Encodable) :
    (indentation.isBlank = true ↔
        ∀ text output, reindent ⟨indentation, .unbounded⟩ text = .ok output →
          (Comparison.ofTexts text output).difference = none) ∧
      (indentation.isBlank = true →
        ∀ memory text output, reindent ⟨indentation, memory⟩ text = .ok output →
          (Comparison.ofTexts text output).difference = none) := by
  refine ⟨⟨?_, ?_⟩, ?_⟩
  · intro blank text output returned
    exact content_kept blank returned
  · intro kept
    have returned : reindent ⟨indentation, .unbounded⟩ Lexeme.indentedOnce =
        .ok (Lexeme.layout indentation.unit Lexeme.indentedOnce) :=
      reindent_unbounded unit (by decide) (by decide)
    have same := Comparison.difference_eq_none_iff.mp (kept _ _ returned)
    exact Indentation.isBlank_iff.mpr (Lexeme.blank_of_ofText_layout same.symm)
  · intro blank memory text output returned
    exact content_kept blank returned

/-- A number sign as the unit turns what it indents into a comment. -/
theorem isBlank_iff_content_kept_of_hash :
    Text.Encodable (Text.ofString "#") ∧
      ¬∀ text output, reindent ⟨.custom (Text.ofString "#"), .unbounded⟩ text = .ok output →
        (Comparison.ofTexts text output).difference = none := by
  have unit : (Indentation.custom (Text.ofString "#")).unit.Encodable := by decide
  have visible : (Indentation.custom (Text.ofString "#")).isBlank ≠ true := by decide
  exact ⟨unit, fun kept => visible ((isBlank_iff_content_kept unit).1.mpr kept)⟩

/-- Two texts have the same content exactly if they are reindented alike with a blank unit, once
both end in a newline. -/
theorem same_content_iff_same_layout {indentation : Indentation} {first second : Text}
    (blank : indentation.isBlank = true) (first_encodable : first.Encodable)
    (second_encodable : second.Encodable) (first_countable : first.length < 0x7FFFFFFFFFFFFFFF)
    (second_countable : second.length < 0x7FFFFFFFFFFFFFFF) :
    (∃ one other, reindent ⟨indentation, .unbounded⟩ (first ++ [.ofChar '\n']) = .ok one ∧
        reindent ⟨indentation, .unbounded⟩ (second ++ [.ofChar '\n']) = .ok other) ∧
      ∀ memory one other, reindent ⟨indentation, memory⟩ (first ++ [.ofChar '\n']) = .ok one →
        reindent ⟨indentation, memory⟩ (second ++ [.ofChar '\n']) = .ok other →
          ((Comparison.ofTexts first second).difference = none ↔ one = other) := by
  have blank_unit := Indentation.isBlank_iff.mp blank
  have returned : ∀ text : Text, text.Encodable → text.length < 0x7FFFFFFFFFFFFFFF →
      reindent ⟨indentation, .unbounded⟩ (text ++ [.ofChar '\n']) =
        .ok (Lexeme.layout indentation.unit (text ++ [.ofChar '\n'])) := by
    intro text encodable countable
    apply reindent_unbounded blank_unit.encodable (encodable.append (by decide))
    rw [List.length_append]
    exact Nat.add_lt_add_right countable 1
  refine ⟨⟨_, _, returned first first_encodable first_countable,
    returned second second_encodable second_countable⟩, ?_⟩
  intro memory one other laid_first laid_second
  rw [Comparison.difference_eq_none_iff, eq_layout_of_reindent laid_first,
    eq_layout_of_reindent laid_second]
  exact (Lexeme.layout_append_newline_eq_iff blank_unit first second).symm

/-- Atoms that are kept apart, a comment at the very end and a break within a container. -/
theorem same_content_iff_same_layout_of_comments :
    (Comparison.ofTexts (Text.ofString "[a b # x") (Text.ofString "[ ab# x\n")).difference = none ∧
      ∃ output, reindent ⟨.standard, .unbounded⟩ (Text.ofString "[a b # x" ++ [.ofChar '\n']) =
          .ok output ∧
        reindent ⟨.standard, .unbounded⟩ (Text.ofString "[ ab# x\n" ++ [.ofChar '\n']) =
          .ok output := by
  have same : (Comparison.ofTexts (Text.ofString "[a b # x")
      (Text.ofString "[ ab# x\n")).difference = none := by decide +kernel
  obtain ⟨⟨one, other, first, second⟩, agree⟩ :=
    @same_content_iff_same_layout .standard (Text.ofString "[a b # x")
      (Text.ofString "[ ab# x\n") (by decide) (by decide) (by decide) (by decide) (by decide)
  refine ⟨same, one, first, ?_⟩
  rw [(agree .unbounded one other first second).mp same]
  exact second

end Reindent
