import Mathlib.Data.List.Infix
import Mathlib.Tactic.MkIffOfInductiveProp
import Reindent.Proofs.EndState

/-!
Containers are laid out element by element.

Within one more container a text is laid out as before, with one more unit on each of its lines, as
long as it closes no container that it did not open (`traceText_deeper`).  A text that closes all
that it opens and ends between two lexemes leaves layout where it was (`traceText_isElement`), so the
elements of a container do not disturb each other.  What an opener or a comma has requested is one
line break before the element that follows (`traceText_requested`).

Main statement: a container around some elements is laid out as the elements are, each one on a line
of its own and one level deeper (`reindent_container`).
-/

namespace Reindent

namespace Lexeme

/-! ### Texts that can be elements -/

/-- How many of some lexemes have a mark. -/
def countOf (mark : Mark) (lexemes : List Lexeme) : Nat :=
  lexemes.countP fun lexeme => lexeme.mark = mark

/-- At a depth, no closer comes before its opener. -/
def StaysOpen (depth : Nat) (lexemes : List Lexeme) : Prop :=
  ∀ front, front <+: lexemes → countOf .closer front ≤ depth + countOf .opener front

/-- A text that can be an element of a container. -/
@[mk_iff]
structure IsElement (text : Text) : Prop where
  content : ofText text ≠ []
  /-- No closer comes before its opener, whatever their kinds are. -/
  opened : StaysOpen 0 (ofText text)
  /-- Every opener has a closer. -/
  closed : countOf .closer (ofText text) = countOf .opener (ofText text)
  comma : ¬EndsWith (fun last => last.mark = .comma) (ofText text)
  string : ¬EndsWith IsOpen (ofText text)
  /-- A comment at the end has its newline. -/
  comment : EndsWith (fun last => last.kind = .comment) (ofText text) →
    ¬OneLine (behindLast text)

instance (depth : Nat) (lexemes : List Lexeme) : Decidable (StaysOpen depth lexemes) :=
  decidable_of_iff
    (∀ front ∈ lexemes.inits, countOf .closer front ≤ depth + countOf .opener front)
    (by simp only [List.mem_inits, StaysOpen])

instance (run : Text) : Decidable (OneLine run) :=
  inferInstanceAs (Decidable (∀ c ∈ run, c.code ≠ Code.newline))

instance (text : Text) : Decidable (IsElement text) := decidable_of_iff' _ (isElement_iff text)

theorem countOf_cons (mark : Mark) (lexeme : Lexeme) (rest : List Lexeme) :
    countOf mark (lexeme :: rest) = countOf mark rest + if lexeme.mark = mark then 1 else 0 := by
  rw [countOf, List.countP_cons]
  simp only [decide_eq_true_eq]
  rfl

/-- The depth after a lexeme counts it, unless it is a closer without a container. -/
theorem depthAfter_add {lexeme : Lexeme} {depth : Nat}
    (held : lexeme.mark = .closer → 1 ≤ depth) :
    lexeme.depthAfter depth + (if lexeme.mark = .closer then 1 else 0) =
      depth + if lexeme.mark = .opener then 1 else 0 := by
  unfold depthAfter
  cases mark : lexeme.mark with
  | closer => exact Nat.sub_add_cancel (held mark)
  | opener | blank | quote | hash | colon | comma | ordinary => rfl

/-- One lexeme and then the rest: a closer needs a container, and the depth goes on. -/
theorem staysOpen_cons {depth : Nat} {lexeme : Lexeme} {rest : List Lexeme} :
    StaysOpen depth (lexeme :: rest) ↔
      (lexeme.mark = .closer → 1 ≤ depth) ∧ StaysOpen (lexeme.depthAfter depth) rest := by
  constructor
  · intro stays
    have held : lexeme.mark = .closer → 1 ≤ depth := by
      intro closer
      have first := stays [lexeme] (List.prefix_append [lexeme] rest)
      simpa [countOf_cons, closer, countOf] using first
    refine ⟨held, fun front inside => ?_⟩
    have longer := stays (lexeme :: front) (List.cons_prefix_cons.mpr ⟨rfl, inside⟩)
    have counted := depthAfter_add held
    rw [countOf_cons, countOf_cons] at longer
    omega
  · rintro ⟨held, stays⟩ front inside
    rcases List.prefix_cons_iff.mp inside with rfl | ⟨shorter, rfl, behind⟩
    · exact Nat.zero_le _
    · have later := stays shorter behind
      have counted := depthAfter_add held
      rw [countOf_cons, countOf_cons]
      omega

/-- A code point of an atom changes no depth. -/
theorem staysOpen_consAtom {depth : Nat} {c : CodePoint} {lexemes : List Lexeme} :
    StaysOpen depth (consAtom c lexemes) ↔ StaysOpen depth lexemes := by
  have atom : ∀ text rest, StaysOpen depth (⟨.atom, text⟩ :: rest) ↔ StaysOpen depth rest := by
    intro text rest
    rw [staysOpen_cons]
    simp [mark, depthAfter]
  cases lexemes with
  | nil => exact atom [c] []
  | cons first rest =>
      rw [consAtom]
      split
      · rename_i joins
        obtain ⟨kind, text⟩ := first
        cases joins
        rw [atom, atom]
      · exact atom [c] (first :: rest)

/-- Where no closer lacks its opener, the depth counts exactly. -/
theorem depthAfterAll_add {depth : Nat} {lexemes : List Lexeme} (stays : StaysOpen depth lexemes) :
    depthAfterAll depth lexemes + countOf .closer lexemes = depth + countOf .opener lexemes := by
  induction lexemes generalizing depth with
  | nil => rfl
  | cons lexeme rest later =>
      obtain ⟨held, after⟩ := staysOpen_cons.mp stays
      have counted := depthAfter_add held
      have remaining := later after
      rw [depthAfterAll_cons, countOf_cons, countOf_cons]
      omega

section Elements

variable {text : Text}

/-- An element does not start with a closer. -/
theorem IsElement.first (complete : IsElement text) :
    ∀ first ∈ (ofText text).head?, first.mark ≠ .closer := by
  have opened := complete.opened
  intro first here closer
  obtain ⟨rest, lexemes⟩ := List.head?_eq_some_iff.mp here
  rw [lexemes, staysOpen_cons] at opened
  exact absurd (opened.1 closer) (by decide)

/-- An element does not end with an opener, since nothing closes that one. -/
theorem IsElement.last (complete : IsElement text) :
    ¬EndsWith (fun last => last.mark = .opener) (ofText text) := by
  rintro ⟨last, here, opener⟩
  obtain ⟨front, lexemes⟩ := List.getLast?_eq_some_iff.mp here
  have before := complete.opened front (by rw [lexemes]; exact List.prefix_append front [last])
  have whole := complete.closed
  have one_more (mark : Mark) :
      countOf mark (ofText text) = countOf mark front + countOf mark [last] := by
    rw [lexemes, countOf, List.countP_append]
    rfl
  have one_opener : countOf .closer [last] = 0 ∧ countOf .opener [last] = 1 := by
    simp [countOf, opener]
  rw [one_more, one_more, one_opener.1, one_opener.2] at whole
  omega

/-- The depth behind an element is the depth before it. -/
theorem IsElement.depthAfterAll_eq (complete : IsElement text) (depth : Nat) :
    depthAfterAll depth (ofText text) = depth := by
  have stays : StaysOpen depth (ofText text) := by
    intro front inside
    have alone := complete.opened front inside
    omega
  have counted := depthAfterAll_add stays
  rw [complete.closed] at counted
  exact Nat.add_right_cancel counted

theorem IsElement.uncommented (complete : IsElement text) : endsInComment text = false := by
  rw [← Bool.not_eq_true, endsInComment_iff]
  rintro ⟨commented, line⟩
  exact complete.comment commented line

end Elements

end Lexeme

open Lexeme

namespace State

/-- An element leads layout back to where it was. -/
theorem traceText_isElement (depth : Nat) {text : Text} (complete : IsElement text) :
    ((between depth .ordinary).traceText text).1 = between depth .ordinary := by
  obtain ⟨last, here⟩ :=
    Option.ne_none_iff_exists'.mp (mt List.getLast?_eq_none_iff.mp complete.content)
  have ended : Ended (some last) := by
    intro lexeme same unclosed
    cases same
    exact complete.string ⟨_, here, unclosed⟩
  have plain : between depth last.mark = between depth .ordinary := by
    have unopened : last.mark ≠ .opener := fun opener => complete.last ⟨last, here, opener⟩
    have uncomma : last.mark ≠ .comma := fun comma => complete.comma ⟨last, here, comma⟩
    simp [between, unopened, uncomma]
  have none_before : Ended none := by
    intro lexeme member
    cases member
  have state := traceText_between depth none_before text
  rw [endingOf, complete.depthAfterAll_eq, complete.uncommented, here] at state
  exact state.trans ((ending_of_ended ended depth).trans plain)

end State

/-! ### One level deeper -/

/-- The same piece within one more container. -/
def Piece.deeper : Piece → Piece
  | .lineBreak level => .lineBreak (level + 1)
  | .copied code => .copied code
  | .echoed code => .echoed code
  | .space => .space

namespace State

/-- The same state within one more container. -/
def deeper (state : State) : State := { state with level := state.level + 1 }

theorem deeper_between (depth : Nat) (before : Mark) (mode : Mode) :
    (between depth before mode).deeper = between (depth + 1) before mode := rfl

/-- A symbol that closes nothing that is not open stands one level deeper. -/
theorem levelOf_deeper {state : State} {mark : Mark} (held : mark = .closer → 1 ≤ state.level) :
    state.deeper.levelOf mark = state.levelOf mark + 1 := by
  unfold levelOf
  split
  · rename_i closer
    have open_ := held closer
    simp only [deeper]
    omega
  · rfl

theorem map_deeper_breaks {state : State} {mark : Mark} (held : mark = .closer → 1 ≤ state.level) :
    state.deeper.closerBreak mark ++ state.deeper.requestedBreak mark =
      (state.closerBreak mark ++ state.requestedBreak mark).map Piece.deeper := by
  unfold closerBreak requestedBreak
  rw [levelOf_deeper held]
  have same : state.deeper.breakPending = state.breakPending ∧
      state.deeper.openerPending = state.openerPending := ⟨rfl, rfl⟩
  rw [same.1, same.2, List.map_append]
  split <;> split <;> rfl

theorem afterMark_deeper {state : State} {mark : Mark} (held : mark = .closer → 1 ≤ state.level) :
    state.deeper.afterMark mark = (state.afterMark mark).deeper := by
  unfold afterMark
  rw [levelOf_deeper held]
  simp only [deeper]
  split <;> rfl

/-- The first symbol of a lexeme within one more container: the same, one level deeper. -/
theorem traceText_visible_deeper (depth : Nat) (before : Mark) {c : CodePoint}
    (visible : c.mark ≠ .blank) (held : c.mark = .closer → 1 ≤ depth) {rest : Text}
    (later : (((between depth before).afterMark c.mark).deeper.traceText rest).2 =
      (((between depth before).afterMark c.mark).traceText rest).2.map Piece.deeper) :
    ((between depth before).deeper.traceText (c :: rest)).2 =
      ((between depth before).traceText (c :: rest)).2.map Piece.deeper := by
  have code : Mark.ofCode c.code = c.mark := rfl
  have inside : c.mark = .closer → 1 ≤ (between depth before).level :=
    fun closer => Int.ofNat_le.mpr (held closer)
  rw [traceText_cons, next_of_visible rfl visible, traceText_cons, next_of_visible rfl visible,
    code, afterMark_deeper inside, map_deeper_breaks inside]
  simp only [List.map_append, later]
  split <;> rfl

/-- Copies are the same at all levels. -/
theorem map_deeper_copies (text : Text) : (copies text).map Piece.deeper = copies text := by
  rw [copies, List.map_map]
  rfl

/-- Within one more container a text is told as before, one level deeper, if it closes no container
that it has not opened or met open. -/
theorem traceText_deeper (depth : Nat) (before : Mark) {text : Text}
    (stays : StaysOpen depth (ofText text)) :
    ((between depth before).deeper.traceText text).2 =
      ((between depth before).traceText text).2.map Piece.deeper := by
  -- Strings and comments are copied at every level; a closer is where the two runs could part.
  induction text using Text.lexicalInduction generalizing depth before with
  | nil => rfl
  | blank c rest mark later =>
      rw [ofText_blank mark] at stays
      rw [traceText_cons, next_of_blank rfl mark, traceText_cons, next_of_blank rfl mark]
      exact later depth before stays
  | ordinary c rest mark later =>
      rw [ofText_ordinary mark, staysOpen_consAtom] at stays
      apply traceText_visible_deeper depth before (by simp [mark]) (by simp [mark])
      rw [mark]
      exact later depth .ordinary stays
  | punctuation c rest mark later =>
      have visible : c.mark ≠ .blank := by
        intro blank
        rw [blank] at mark
        cases mark
      rw [ofText_punctuation mark, staysOpen_cons] at stays
      apply traceText_visible_deeper depth before visible stays.1
      rw [afterMark_punctuation _ _ mark]
      exact later _ c.mark stays.2
  | closedString c body rest mark closed later =>
      rw [ofText_closedString mark closed, staysOpen_cons] at stays
      apply traceText_visible_deeper depth before (by simp [mark]) (by simp [mark])
      rw [mark, afterMark_quote, deeper_between, traceText_append, traceText_append,
        traceText_closedBody _ _ closed, traceText_closedBody _ _ closed, List.map_append,
        map_deeper_copies]
      exact congrArg _ (later depth .ordinary stays.2)
  | openString c body mark unclosed =>
      apply traceText_visible_deeper depth before (by simp [mark]) (by simp [mark])
      rw [mark, afterMark_quote, deeper_between, traceText_openBody _ _ unclosed,
        traceText_openBody _ _ unclosed, map_deeper_copies]
  | comment c run rest mark line later =>
      rw [ofText_comment mark line, staysOpen_cons] at stays
      apply traceText_visible_deeper depth before (by simp [mark]) (by simp [mark])
      rw [mark, afterMark_hash, deeper_between, traceText_append, traceText_append,
        traceText_oneLine _ _ line, traceText_oneLine _ _ line, traceText_cons, traceText_cons,
        CodePoint.code_newline, next_newline, next_newline, List.map_append, map_deeper_copies]
      exact congrArg (copies run ++ .copied Code.newline :: ·) (later depth .ordinary stays.2)
  | lastComment c run mark line =>
      apply traceText_visible_deeper depth before (by simp [mark]) (by simp [mark])
      rw [mark, afterMark_hash, deeper_between, traceText_oneLine _ _ line,
        traceText_oneLine _ _ line, map_deeper_copies]

/-! ### Elements -/

/-- What an opener or a comma has requested is one line break before whatever follows, if that is no
closer. -/
theorem traceText_requested (depth : Nat) {before : Mark}
    (due : before = .opener ∨ before = .comma) {text : Text} (content : ofText text ≠ [])
    (first : ∀ lexeme ∈ (ofText text).head?, lexeme.mark ≠ .closer) :
    (between depth before).traceText text =
      (((between depth .ordinary).traceText text).1,
        .lineBreak depth :: ((between depth .ordinary).traceText text).2) := by
  induction text with
  | nil => exact absurd ofText_nil content
  | cons c rest later =>
      by_cases blank : c.mark = .blank
      · rw [ofText_blank blank] at content first
        rw [traceText_cons, next_of_blank rfl blank, traceText_cons, next_of_blank rfl blank]
        exact later content first
      · have unclosed : c.mark ≠ .closer := by
          intro closer
          rw [ofText_punctuation (by rw [closer]; rfl)] at first
          exact first _ rfl closer
        have code : Mark.ofCode c.code = c.mark := rfl
        have same : (between depth before).afterMark c.mark =
            (between depth .ordinary).afterMark c.mark := rfl
        have level : (between depth before).levelOf c.mark = depth := if_neg unclosed
        have requested : (between depth before).breakPending = true := decide_eq_true due
        have unrequested : (between depth .ordinary).breakPending = false := rfl
        rw [traceText_cons, next_of_visible rfl blank, traceText_cons, next_of_visible rfl blank,
          code, same]
        simp [closerBreak, requestedBreak, unclosed, requested, unrequested, level]

/-- An element within a container: its line break, and then what it tells alone, one level
deeper. -/
theorem traceText_element {before : Mark} (due : before = .opener ∨ before = .comma) {text : Text}
    (complete : IsElement text) :
    (between 1 before).traceText text =
      (between 1 .ordinary, .lineBreak 1 :: (initial.traceText text).2.map Piece.deeper) := by
  have alone := traceText_deeper 0 .ordinary complete.opened
  rw [traceText_requested 1 due complete.content complete.first, traceText_isElement 1 complete]
  exact congrArg (fun told => (between 1 .ordinary, Piece.lineBreak 1 :: told)) alone

end State

/-- The text that a piece adds within one more container: one more unit at the start of a line. -/
def Piece.textDeeper (unit : Text) : Piece → Text
  | .lineBreak level => .ofChar '\n' :: (unit ++ repeated level.toNat unit)
  | .copied code => Piece.text unit (.copied code)
  | .echoed code => Piece.text unit (.echoed code)
  | .space => Piece.text unit .space

/-- The layout of a text as it stands within a container: each line that layout has started has one
more unit.  A newline within a string, or at the end of a comment, starts no such line. -/
def nestedLayout (unit text : Text) : Text :=
  (State.initial.traceText text).2.flatMap (Piece.textDeeper unit)

/-- An opener, elements with commas between them, and a closer. -/
def container (opener : CodePoint) (elements : List Text) (closer : CodePoint) : Text :=
  opener :: ([CodePoint.ofChar ','].intercalate elements ++ [closer])

/-- The layout of a container: an opener, then a newline, a unit and the nested layout for each
element, with commas between them, then a newline and a closer. -/
def containerLayout (unit : Text) (opener : CodePoint) (elements : List Text)
    (closer : CodePoint) : Text :=
  opener :: ([CodePoint.ofChar ','].intercalate
    (elements.map fun element => .ofChar '\n' :: (unit ++ nestedLayout unit element)) ++
      [.ofChar '\n', closer])

namespace State

theorem text_deeper (unit : Text) {text : Text} {piece : Piece}
    (told : piece ∈ (initial.traceText text).2) :
    piece.deeper.text unit = piece.textDeeper unit := by
  cases piece with
  | lineBreak level =>
      have above := (lineBreak_traceText grounded_initial told).1
      have count : (level + 1).toNat = level.toNat + 1 := Int.toNat_add above (by decide)
      simp only [Piece.deeper, Piece.text, Piece.textDeeper, count, repeated_succ]
  | copied code | echoed code | space => rfl

section Elements

variable (unit : Text)

theorem laid_element {before : Mark} (due : before = .opener ∨ before = .comma) {text : Text}
    (complete : IsElement text) :
    (between 1 before).laid unit text = .ofChar '\n' :: (unit ++ nestedLayout unit text) := by
  have line : (Piece.lineBreak 1).text unit = .ofChar '\n' :: unit :=
    congrArg (CodePoint.ofChar '\n' :: ·) (repeated_one unit)
  have deeper : ((initial.traceText text).2.map Piece.deeper).flatMap (Piece.text unit) =
      nestedLayout unit text := by
    rw [List.flatMap_map]
    exact List.flatMap_congr fun piece told => text_deeper unit told
  rw [laid, traceText_element due complete, List.flatMap_cons, line, deeper]
  rfl

/-- An opener or a comma behind an element, or behind nothing, starts no line. -/
theorem laid_inline (depth : Nat) {c : CodePoint} (due : c.mark = .opener ∨ c.mark = .comma)
    (rest : Text) :
    (between depth .ordinary).laid unit (c :: rest) =
      c :: (between (depthAfter ⟨.punctuation, [c]⟩ depth) c.mark).laid unit rest := by
  have punctuation : c.mark.isPunctuation = true := by
    rcases due with mark | mark <;> rw [mark] <;> rfl
  have visible : c.mark ≠ .blank := by
    rcases due with mark | mark <;> simp [mark]
  have inline : lineDepth? ⟨.punctuation, [c]⟩ depth none = none := by
    rcases due with mark | mark <;> simp [lineDepth?, Lexeme.mark, mark]
  have uncolon : c.mark ≠ .colon := by
    rcases due with mark | mark <;> simp [mark]
  have laid := laid_visible unit depth none ⟨.punctuation, [c]⟩ visible Iff.rfl rest
  rw [inline, if_neg uncolon, afterMark_punctuation _ _ punctuation] at laid
  exact laid

/-- The closer of a container stands on a line of its own, behind an element. -/
theorem laid_closer {c : CodePoint} (closer : c.mark = .closer) :
    (between 1 .ordinary).laid unit [c] = [.ofChar '\n', c] := by
  have visible : c.mark ≠ .blank := by simp [closer]
  have line : lineDepth? ⟨.punctuation, [c]⟩ 1 none = some 0 := by
    simp [lineDepth?, Lexeme.mark, closer]
  have uncolon : c.mark ≠ .colon := by simp [closer]
  have laid := laid_visible unit 1 none ⟨.punctuation, [c]⟩ visible Iff.rfl []
  rw [line, if_neg uncolon, lineStart, repeated_zero] at laid
  exact laid

/-- Elements are laid out one by one, and lead layout back to where it was. -/
theorem laid_elements {before : Mark} (due : before = .opener ∨ before = .comma)
    {elements : List Text} (some_element : elements ≠ [])
    (complete : ∀ element ∈ elements, IsElement element) :
    ((between 1 before).traceText ([.ofChar ','].intercalate elements)).1 = between 1 .ordinary ∧
      (between 1 before).laid unit ([.ofChar ','].intercalate elements) =
        [.ofChar ','].intercalate
          (elements.map fun element => .ofChar '\n' :: (unit ++ nestedLayout unit element)) := by
  -- The opener requests the break of the first element, and a comma that of each further one.
  induction elements generalizing before with
  | nil => exact absurd rfl some_element
  | cons element rest later =>
      obtain ⟨here, others⟩ := List.forall_mem_cons.mp complete
      rw [List.map_cons]
      by_cases alone : rest = []
      · rw [alone, List.map_nil, List.intercalate_singleton, List.intercalate_singleton,
          traceText_element due here]
        exact ⟨rfl, laid_element unit due here⟩
      · obtain ⟨state, laid⟩ := later (.inr rfl) alone others
        have comma : (CodePoint.ofChar ',').mark = .comma := by decide
        have after : ∀ text, ((between 1 .ordinary).traceText (.ofChar ',' :: text)).1 =
            ((between 1 .comma).traceText text).1 := by
          intro text
          rw [traceText_visible rfl (by simp [comma]), comma]
          rfl
        rw [List.intercalate_cons_of_ne_nil alone,
          List.intercalate_cons_of_ne_nil (mt List.map_eq_nil_iff.mp alone), ← laid,
          List.append_assoc, List.append_assoc]
        constructor
        · rw [traceText_append, traceText_element due here]
          exact (after _).trans state
        · rw [laid_append, laid_element unit due here, traceText_element due here]
          exact congrArg _ (laid_inline unit 1 (.inr comma) _)

/-- A container is laid out by its elements. -/
theorem laid_container {opener closer : CodePoint} (opens : opener.mark = .opener)
    (closes : closer.mark = .closer) {elements : List Text} (some_element : elements ≠ [])
    (complete : ∀ element ∈ elements, IsElement element) :
    initial.laid unit (container opener elements closer) =
      containerLayout unit opener elements closer := by
  have inside : depthAfter ⟨.punctuation, [opener]⟩ 0 = 1 := by
    simp [depthAfter, Lexeme.mark, opens]
  obtain ⟨state, laid⟩ := laid_elements unit (.inl rfl) some_element complete
  rw [container, initial_eq_between, laid_inline unit 0 (.inl opens), inside, opens, laid_append,
    state, laid, laid_closer unit closes]
  rfl

end Elements

end State

/-! ### Reindenting a container -/

theorem length_le_intercalate {separator : Text} {elements : List Text} {element : Text}
    (member : element ∈ elements) : element.length ≤ (separator.intercalate elements).length := by
  induction elements with
  | nil => cases member
  | cons first rest later =>
      by_cases alone : rest = []
      · rw [alone] at member ⊢
        rw [List.mem_singleton.mp member, List.intercalate_singleton]
      · rw [List.intercalate_cons_of_ne_nil alone, List.length_append, List.length_append]
        rcases List.mem_cons.mp member with rfl | inside
        · omega
        · have shorter := later inside
          omega

theorem Text.Encodable.intercalate {separator : Text} (first : separator.Encodable)
    {elements : List Text} (each : ∀ element ∈ elements, Text.Encodable element) :
    Text.Encodable (separator.intercalate elements) := by
  induction elements with
  | nil => exact .nil
  | cons element rest later =>
      obtain ⟨here, others⟩ := List.forall_mem_cons.mp each
      by_cases alone : rest = []
      · rw [alone, List.intercalate_singleton]
        exact here
      · rw [List.intercalate_cons_of_ne_nil alone]
        exact (here.append first).append (later others)

theorem encodable_singleton_of_mark {c : CodePoint} (meaning : c.mark ≠ .ordinary) :
    Text.Encodable [c] := by
  intro d member
  have ascii := CodePoint.ascii_of_mark meaning
  rw [List.mem_singleton.mp member, ← Bool.not_eq_true, CodePoint.isSurrogate_iff]
  omega

theorem encodable_container {opener closer : CodePoint} (opens : opener.mark = .opener)
    (closes : closer.mark = .closer) {elements : List Text}
    (encodable : ∀ element ∈ elements, Text.Encodable element) :
    Text.Encodable (container opener elements closer) := by
  have comma : Text.Encodable [.ofChar ','] := by decide
  have first : Text.Encodable [opener] := encodable_singleton_of_mark (by simp [opens])
  have last : Text.Encodable [closer] := encodable_singleton_of_mark (by simp [closes])
  exact first.append ((comma.intercalate encodable).append last)

/-- Around elements that are complete, a container is laid out by what each element is laid out as
alone: on a line of its own, with one more unit there and at the start of each further line.  With
bounded memory, nothing else is returned, and want of memory is all that reindenting can fail
for. -/
theorem reindent_container {indentation : Indentation} {opener closer : CodePoint}
    {elements : List Text} (unit : indentation.unit.Encodable) (opens : opener.mark = .opener)
    (closes : closer.mark = .closer) (some_element : elements ≠ [])
    (complete : ∀ element ∈ elements, IsElement element)
    (encodable : ∀ element ∈ elements, Text.Encodable element)
    (countable : (container opener elements closer).length < 0x8000000000000000) :
    (∀ element ∈ elements, reindent ⟨indentation, .unbounded⟩ element =
        .ok ((State.initial.traceText element).2.flatMap (Piece.text indentation.unit))) ∧
      reindent ⟨indentation, .unbounded⟩ (container opener elements closer) =
        .ok (containerLayout indentation.unit opener elements closer) ∧
      ∀ memory, reindent ⟨indentation, memory⟩ (container opener elements closer) =
          .ok (containerLayout indentation.unit opener elements closer) ∨
        ∃ error : BreakError, error.IsWantOfMemory ∧
          reindent ⟨indentation, memory⟩ (container opener elements closer) =
            .error (.step (.lineBreak error)) := by
  have whole := encodable_container opens closes encodable
  rw [← State.laid_container indentation.unit opens closes some_element complete,
    State.laid_initial]
  refine ⟨fun element member => ?_, reindent_unbounded unit whole countable, fun memory => ?_⟩
  · have short : element.length < 0x8000000000000000 := by
      have within := @length_le_intercalate [.ofChar ','] elements element member
      rw [container, List.length_cons, List.length_append] at countable
      omega
    rw [reindent_unbounded unit (encodable element member) short, ← State.laid_initial]
    rfl
  · rcases reindent_cases ⟨indentation, memory⟩ unit whole countable with returned | ⟨_, failed⟩
    · exact .inl returned
    · exact .inr failed

/-- Elements with a newline in a string, a comma and an empty container, with a comment at the end,
and with brackets that do not match. -/
def mixedElements : List Text :=
  ["a: \"]\n\", \x7b \x7d", "b # c]\n", "[1\x7d"]

theorem reindent_container_of_mixed :
    (∀ element ∈ mixedElements, IsElement element) ∧
      reindent ⟨.custom "·", .unbounded⟩ (container (.ofChar '{') mixedElements (.ofChar ']')) =
        .ok "\x7b\n·a: \"]\n\",\n·\x7b\x7d,\n·b# c]\n,\n·[\n··1\n·\x7d\n]" := by
  have complete : ∀ element ∈ mixedElements, IsElement element := by decide +kernel
  have unit : (Indentation.custom "·").unit.Encodable := by decide +kernel
  have shown : containerLayout "·" (.ofChar '{') mixedElements (.ofChar ']') =
      "\x7b\n·a: \"]\n\",\n·\x7b\x7d,\n·b# c]\n,\n·[\n··1\n·\x7d\n]" := by
    decide +kernel
  refine ⟨complete, ?_⟩
  rw [← shown]
  exact (reindent_container unit (by decide) (by decide) (by decide) complete (by decide +kernel)
    (by decide +kernel)).2.1

end Reindent
