import Mathlib.Data.List.Chain
import Reindent.Proofs.Content

/-!
The language of lexemes, and the texts that spell it.

The cutting of a text is one algorithm with choices that are made in order.  Here the same language
is told without an algorithm: which lists of lexemes there are, symbol by symbol, and which texts
spell such a list.  Whitespace may stand before, between and behind lexemes and within atoms; only
comments and open strings limit what follows them.

Main statement: the lexemes of a text are the one well-formed list that the text spells
(`ofText_eq_iff`).
-/

namespace Reindent

/-! ### The symbols -/

/-- The symbols of whitespace: space, tab, newline, carriage return, vertical tab, form feed. -/
def whitespaceSymbols : Text := " \t\n\r\x0b\x0c"

/-- The symbols that are lexemes by themselves. -/
def punctuationSymbols : Text := "[]\x7b\x7d:,"

/-- The symbols that no atom holds. -/
def reservedSymbols : Text := whitespaceSymbols ++ punctuationSymbols ++ Text.ofString "\"#"

/-- A class of marks without the ordinary one is a row of symbols, if it is so within ASCII. -/
theorem CodePoint.mark_class_iff (belongs : Mark → Bool) (row : Text)
    (special : belongs .ordinary = false) (inside : ∀ c ∈ row, c.value < 0x80)
    (same : ∀ value < 0x80,
      belongs (CodePoint.ofNat value).mark = decide (CodePoint.ofNat value ∈ row))
    (c : CodePoint) : belongs c.mark = true ↔ c ∈ row := by
  by_cases ascii : c.value < 0x80
  · have here := same c.value ascii
    rw [CodePoint.ofNat_value] at here
    rw [here, decide_eq_true_iff]
  · have ordinary : c.mark = .ordinary :=
      Mark.ofCode_eq_ordinary (.inr (Int.ofNat_le.mpr (Nat.le_of_not_lt ascii)))
    constructor
    · intro meaning
      rw [ordinary, special] at meaning
      cases meaning
    · intro member
      exact absurd (inside c member) ascii

theorem CodePoint.mark_eq_blank_iff {c : CodePoint} :
    c.mark = .blank ↔ c ∈ whitespaceSymbols := by
  rw [← CodePoint.mark_class_iff (fun mark => mark == .blank) whitespaceSymbols rfl (by decide)
    (by decide +kernel), beq_iff_eq]

theorem CodePoint.isPunctuation_mark_iff {c : CodePoint} :
    c.mark.isPunctuation = true ↔ c ∈ punctuationSymbols :=
  CodePoint.mark_class_iff Mark.isPunctuation punctuationSymbols rfl (by decide)
    (by decide +kernel) c

theorem CodePoint.mark_eq_ordinary_iff {c : CodePoint} :
    c.mark = .ordinary ↔ c ∉ reservedSymbols := by
  rw [← CodePoint.mark_class_iff (fun mark => mark != .ordinary) reservedSymbols rfl (by decide)
    (by decide +kernel), bne_iff_ne, not_not]

theorem CodePoint.mark_eq_quote_iff {c : CodePoint} : c.mark = .quote ↔ c = .ofChar '"' := by
  have only := CodePoint.mark_class_iff (fun mark => mark == .quote) [.ofChar '"'] rfl (by decide)
    (by decide +kernel) c
  rwa [beq_iff_eq, List.mem_singleton] at only

theorem CodePoint.mark_eq_hash_iff {c : CodePoint} : c.mark = .hash ↔ c = .ofChar '#' := by
  have only := CodePoint.mark_class_iff (fun mark => mark == .hash) [.ofChar '#'] rfl (by decide)
    (by decide +kernel) c
  rwa [beq_iff_eq, List.mem_singleton] at only

/-- A row of whitespace, symbol by symbol. -/
theorem Text.blank_iff_subset {row : Text} : row.Blank ↔ row ⊆ whitespaceSymbols :=
  forall₂_congr fun _ _ => CodePoint.mark_eq_blank_iff

namespace Lexeme

/-! ### Well-formed lists -/

/-- A lexeme that may stand anywhere in a list. -/
inductive Complete : Lexeme → Prop where
  | string {body : Text} (closed : ClosedBody body) : Complete ⟨.string, .ofChar '"' :: body⟩
  | comment {run : Text} (line : OneLine run) : Complete ⟨.comment, .ofChar '#' :: run⟩
  | punctuation {c : CodePoint} (symbol : c ∈ punctuationSymbols) : Complete ⟨.punctuation, [c]⟩
  | atom {text : Text} (nonempty : text ≠ []) (plain : ∀ c ∈ text, c ∉ reservedSymbols) :
      Complete ⟨.atom, text⟩

/-- A lexeme that may stand last only: a string that nothing closes. -/
inductive Unterminated : Lexeme → Prop where
  | string {body : Text} (unclosed : OpenBody body) : Unterminated ⟨.string, .ofChar '"' :: body⟩

/-- Lists of lexemes that some text has.  Adjacent atoms would be one atom. -/
structure WellFormed (lexemes : List Lexeme) : Prop where
  inner : ∀ lexeme ∈ lexemes.dropLast, lexeme.Complete
  last : ∀ lexeme ∈ lexemes.getLast?, lexeme.Complete ∨ lexeme.Unterminated
  apart : lexemes.IsChain fun first second => ¬(first.kind = .atom ∧ second.kind = .atom)

theorem wellFormed_nil : WellFormed [] where
  inner := by simp
  last := by simp
  apart := .nil

/-- A list is well formed if its first lexeme fits and the others are well formed. -/
theorem wellFormed_cons {lexeme : Lexeme} {rest : List Lexeme} :
    WellFormed (lexeme :: rest) ↔
      (lexeme.Complete ∨ lexeme.Unterminated ∧ rest = []) ∧
        (∀ next ∈ rest.head?, ¬(lexeme.kind = .atom ∧ next.kind = .atom)) ∧ WellFormed rest := by
  cases rest with
  | nil =>
      constructor
      · intro formed
        refine ⟨?_, by simp, wellFormed_nil⟩
        rcases formed.last lexeme rfl with complete | unterminated
        · exact .inl complete
        · exact .inr ⟨unterminated, rfl⟩
      · rintro ⟨fits, -, -⟩
        refine ⟨by simp, ?_, .singleton lexeme⟩
        intro last same
        cases same
        exact fits.imp_right And.left
  | cons next others =>
      constructor
      · rintro ⟨inner, last, apart⟩
        obtain ⟨separate, chain⟩ := List.isChain_cons_cons.mp apart
        refine ⟨.inl (inner lexeme (List.mem_cons_self ..)), ?_, ?_, last, chain⟩
        · intro other same
          cases same
          exact separate
        · intro other member
          exact inner other (List.mem_cons_of_mem lexeme member)
      · rintro ⟨complete | ⟨-, none⟩, separate, formed⟩
        · refine ⟨List.forall_mem_cons.mpr ⟨complete, formed.inner⟩, formed.last, ?_⟩
          exact List.isChain_cons_cons.mpr ⟨separate next rfl, formed.apart⟩
        · cases none

/-! ### Spellings -/

/-- An atom written with whitespace between its code points. -/
inductive Spread : Text → Text → Prop where
  | last (c : CodePoint) : Spread [c] [c]
  | more (c : CodePoint) {gap atom written : Text} (blank : gap ⊆ whitespaceSymbols)
      (later : Spread atom written) : Spread (c :: atom) (c :: (gap ++ written))

/-- How a lexeme is written: atoms may be spread, and all others stand as they are. -/
def WrittenAs (lexeme : Lexeme) (written : Text) : Prop :=
  match lexeme.kind with
  | .atom => Spread lexeme.text written
  | .string | .comment | .punctuation => written = lexeme.text

/-- What may follow a lexeme, which is a gap of whitespace and then the text from the next lexeme
on.  A comment ends at a newline or with the text, and a string that nothing closes ends with the
text. -/
structure MayPrecede (lexeme : Lexeme) (gap later : Text) : Prop where
  comment : lexeme.kind = .comment → gap.head? = some (.ofChar '\n') ∨ gap ++ later = []
  unterminated : lexeme.Unterminated → gap ++ later = []

/-- Texts that spell lexemes without whitespace in front. -/
inductive SpellsOn : List Lexeme → Text → Prop where
  | nil : SpellsOn [] []
  | cons {lexeme : Lexeme} {rest : List Lexeme} {written gap later : Text}
      (spelled : lexeme.WrittenAs written) (blank : gap ⊆ whitespaceSymbols)
      (limit : lexeme.MayPrecede gap later) (others : SpellsOn rest later) :
      SpellsOn (lexeme :: rest) (written ++ (gap ++ later))

/-- A text spells lexemes: a gap of whitespace, and then each of them with a gap behind it. -/
def Spells (lexemes : List Lexeme) (text : Text) : Prop :=
  ∃ gap later, gap ⊆ whitespaceSymbols ∧ SpellsOn lexemes later ∧ text = gap ++ later

/-! ### Every text spells its lexemes -/

theorem wellFormed_consAtom {c : CodePoint} (plain : c ∉ reservedSymbols) {lexemes : List Lexeme}
    (formed : WellFormed lexemes) : WellFormed (consAtom c lexemes) := by
  have alone : Complete ⟨.atom, [c]⟩ := .atom (by simp) (by simpa using plain)
  cases lexemes with
  | nil => exact wellFormed_cons.mpr ⟨.inl alone, by simp, formed⟩
  | cons first rest =>
      by_cases joins : first.kind = .atom
      · obtain ⟨fits, separate, others⟩ := wellFormed_cons.mp formed
        rw [consAtom, if_pos joins]
        refine wellFormed_cons.mpr ⟨.inl ?_, fun next member => ?_, others⟩
        · rcases fits with complete | ⟨unterminated, -⟩
          · cases complete with
            | atom nonempty ordinary =>
                exact .atom (by simp) (List.forall_mem_cons.mpr ⟨plain, ordinary⟩)
            | string | comment | punctuation => cases joins
          · cases unterminated
            cases joins
        · intro both
          exact separate next member ⟨joins, both.2⟩
      · rw [consAtom, if_neg joins]
        refine wellFormed_cons.mpr ⟨.inl alone, fun next member => ?_, formed⟩
        cases member
        exact fun both => joins both.2

/-- The lexemes of a text are well formed. -/
theorem wellFormed_ofText (text : Text) : WellFormed (ofText text) := by
  have apart : ∀ (lexeme : Lexeme) (rest : List Lexeme), lexeme.kind ≠ .atom →
      ∀ next ∈ rest.head?, ¬(lexeme.kind = .atom ∧ next.kind = .atom) :=
    fun lexeme rest other next member both => other both.1
  induction text using Text.lexicalInduction with
  | nil =>
      rw [ofText_nil]
      exact wellFormed_nil
  | blank c rest mark later =>
      rw [ofText_blank mark]
      exact later
  | ordinary c rest mark later =>
      rw [ofText_ordinary mark]
      exact wellFormed_consAtom (CodePoint.mark_eq_ordinary_iff.mp mark) later
  | punctuation c rest mark later =>
      rw [ofText_punctuation mark]
      have symbol := CodePoint.isPunctuation_mark_iff.mp mark
      exact wellFormed_cons.mpr ⟨.inl (.punctuation symbol), apart _ _ (by simp), later⟩
  | closedString c body rest mark closed later =>
      rw [ofText_closedString mark closed, CodePoint.mark_eq_quote_iff.mp mark]
      exact wellFormed_cons.mpr ⟨.inl (.string closed), apart _ _ (by simp), later⟩
  | openString c body mark unclosed =>
      rw [ofText_openString mark unclosed, CodePoint.mark_eq_quote_iff.mp mark]
      exact wellFormed_cons.mpr ⟨.inr ⟨.string unclosed, rfl⟩, by simp, wellFormed_nil⟩
  | comment c run rest mark line later =>
      rw [ofText_comment mark line, CodePoint.mark_eq_hash_iff.mp mark]
      exact wellFormed_cons.mpr ⟨.inl (.comment line), apart _ _ (by simp), later⟩
  | lastComment c run mark line =>
      rw [ofText_lastComment mark line, CodePoint.mark_eq_hash_iff.mp mark]
      exact wellFormed_cons.mpr ⟨.inl (.comment line), by simp, wellFormed_nil⟩

/-- Lexemes that limit nothing may stand in front of any spelling. -/
theorem Spells.cons {lexeme : Lexeme} {rest : List Lexeme} {written text : Text}
    (spelled : lexeme.WrittenAs written) (other : lexeme.kind ≠ .comment)
    (terminated : ¬lexeme.Unterminated) (spells : Spells rest text) :
    Spells (lexeme :: rest) (written ++ text) := by
  obtain ⟨gap, later, blank, others, rfl⟩ := spells
  have limit : lexeme.MayPrecede gap later :=
    ⟨fun comment => absurd comment other, fun unterminated => absurd unterminated terminated⟩
  exact ⟨[], _, by simp, .cons spelled blank limit others, rfl⟩

/-- A lexeme that ends with the text is spelled by itself. -/
theorem Spells.single {lexeme : Lexeme} (other : lexeme.kind ≠ .atom) :
    Spells [lexeme] lexeme.text := by
  have spelled : lexeme.WrittenAs lexeme.text := by
    unfold WrittenAs
    cases kind : lexeme.kind with
    | atom => exact absurd kind other
    | string | comment | punctuation => rfl
  have limit : lexeme.MayPrecede [] [] := ⟨fun _ => .inr rfl, fun _ => rfl⟩
  exact ⟨[], _, by simp, .cons spelled (by simp) limit .nil, by simp⟩

/-- A comment with its newline may stand in front of any spelling. -/
theorem Spells.comment {run : Text} {rest : List Lexeme} {text : Text} (spells : Spells rest text) :
    Spells (⟨.comment, run⟩ :: rest) (run ++ .ofChar '\n' :: text) := by
  obtain ⟨gap, later, blank, others, rfl⟩ := spells
  have newline : CodePoint.ofChar '\n' ∈ whitespaceSymbols := by decide
  have limit : MayPrecede ⟨.comment, run⟩ (.ofChar '\n' :: gap) later :=
    ⟨fun _ => .inl rfl, fun unterminated => nomatch unterminated⟩
  exact ⟨[], _, by simp, .cons rfl (List.cons_subset.mpr ⟨newline, blank⟩) limit others, rfl⟩

/-- A code point of an atom, in front of a spelling, belongs to an atom that is spelled first, and
else is an atom of its own. -/
theorem Spells.consAtom {lexemes : List Lexeme} {text : Text} (spells : Spells lexemes text)
    (c : CodePoint) : Spells (consAtom c lexemes) (c :: text) := by
  have terminated : ∀ atom, ¬Unterminated ⟨.atom, atom⟩ := fun atom unterminated =>
    nomatch unterminated
  have spread_alone : WrittenAs ⟨.atom, [c]⟩ [c] := .last c
  have alone : Spells (⟨.atom, [c]⟩ :: lexemes) (c :: text) :=
    Spells.cons spread_alone (by simp) (terminated _) spells
  cases lexemes with
  | nil => exact alone
  | cons first rest =>
      by_cases joins : first.kind = .atom
      · rw [Lexeme.consAtom, if_pos joins]
        obtain ⟨gap, later, blank, others, rfl⟩ := spells
        obtain ⟨kind, atom⟩ := first
        cases joins
        cases others with
        | cons spelled behind limit others =>
            have spread : WrittenAs ⟨.atom, c :: atom⟩ (c :: (gap ++ _)) := .more c blank spelled
            have following : Spells rest _ := ⟨_, _, behind, others, rfl⟩
            have whole := Spells.cons spread (by simp) (terminated _) following
            simpa using whole
      · rw [Lexeme.consAtom, if_neg joins]
        exact alone

theorem not_unterminated_closed {c : CodePoint} {body : Text} (closed : ClosedBody body) :
    ¬Unterminated ⟨.string, c :: body⟩ := by
  intro unterminated
  cases unterminated with
  | string unclosed => exact closed.not_open unclosed

/-- A text spells its lexemes. -/
theorem spells_ofText (text : Text) : Spells (ofText text) text := by
  induction text using Text.lexicalInduction with
  | nil =>
      rw [ofText_nil]
      exact ⟨[], [], by simp, .nil, rfl⟩
  | blank c rest mark later =>
      rw [ofText_blank mark]
      obtain ⟨gap, following, blank, others, rfl⟩ := later
      have symbol := CodePoint.mark_eq_blank_iff.mp mark
      exact ⟨c :: gap, following, List.cons_subset.mpr ⟨symbol, blank⟩, others, rfl⟩
  | ordinary c rest mark later =>
      rw [ofText_ordinary mark]
      exact later.consAtom c
  | punctuation c rest mark later =>
      rw [ofText_punctuation mark]
      have spelled : WrittenAs ⟨.punctuation, [c]⟩ [c] := rfl
      exact Spells.cons spelled (by simp) (fun unterminated => nomatch unterminated) later
  | closedString c body rest mark closed later =>
      rw [ofText_closedString mark closed]
      have spelled : WrittenAs ⟨.string, c :: body⟩ (c :: body) := rfl
      exact Spells.cons spelled (by simp) (not_unterminated_closed closed) later
  | openString c body mark unclosed =>
      rw [ofText_openString mark unclosed]
      exact Spells.single (by simp)
  | comment c run rest mark line later =>
      rw [ofText_comment mark line]
      exact later.comment
  | lastComment c run mark line =>
      rw [ofText_lastComment mark line]
      exact Spells.single (by simp)

/-! ### Every spelling has these lexemes only -/

/-- A spread atom is read as one, if no atom follows it. -/
theorem ofText_spread {atom written following : Text} (spread : Spread atom written)
    (plain : ∀ c ∈ atom, c ∉ reservedSymbols) {lexemes : List Lexeme}
    (read : ofText following = lexemes) (apart : ∀ next ∈ lexemes.head?, next.kind ≠ .atom) :
    ofText (written ++ following) = ⟨.atom, atom⟩ :: lexemes := by
  induction spread with
  | last c =>
      have ordinary := CodePoint.mark_eq_ordinary_iff.mpr (plain c (List.mem_cons_self ..))
      rw [List.singleton_append, ofText_ordinary ordinary, read]
      cases lexemes with
      | nil => rfl
      | cons next others => rw [consAtom, if_neg (apart next rfl)]
  | more c blank spread later =>
      obtain ⟨first, others⟩ := List.forall_mem_cons.mp plain
      rw [List.cons_append, ofText_ordinary (CodePoint.mark_eq_ordinary_iff.mpr first),
        List.append_assoc, ofText_blanks (Text.blank_iff_subset.mpr blank), later others]
      rfl

/-- What follows a lexeme that may stand anywhere is read as if it stood alone. -/
theorem ofText_complete {lexeme : Lexeme} {rest : List Lexeme} {written gap later : Text}
    (complete : lexeme.Complete) (spelled : lexeme.WrittenAs written)
    (limit : lexeme.MayPrecede gap later) (read : ofText (gap ++ later) = rest)
    (apart : ∀ next ∈ rest.head?, ¬(lexeme.kind = .atom ∧ next.kind = .atom)) :
    ofText (written ++ (gap ++ later)) = lexeme :: rest := by
  cases complete with
  | string closed =>
      cases spelled
      have whole := ofText_closedString (CodePoint.mark_eq_quote_iff.mpr rfl) closed (gap ++ later)
      rw [read] at whole
      exact whole
  | comment line =>
      cases spelled
      rcases limit.comment rfl with newline | ended
      · obtain ⟨behind, rfl⟩ := List.head?_eq_some_iff.mp newline
        rw [List.cons_append, ofText_blank CodePoint.mark_newline] at read
        have whole := ofText_comment (CodePoint.mark_eq_hash_iff.mpr rfl) line (behind ++ later)
        rw [read] at whole
        exact whole
      · rw [ended, ofText_nil] at read
        rw [ended, List.append_nil, ofText_lastComment (CodePoint.mark_eq_hash_iff.mpr rfl) line,
          read]
  | punctuation symbol =>
      cases spelled
      rw [List.singleton_append,
        ofText_punctuation (CodePoint.isPunctuation_mark_iff.mpr symbol), read]
  | atom nonempty plain =>
      exact ofText_spread spelled plain read fun next member atom => apart next member ⟨rfl, atom⟩

/-- A spelling of a well-formed list has that list of lexemes. -/
theorem ofText_of_spellsOn {lexemes : List Lexeme} {text : Text} (formed : WellFormed lexemes)
    (spells : SpellsOn lexemes text) : ofText text = lexemes := by
  induction spells with
  | nil => exact ofText_nil
  | @cons lexeme rest written gap later spelled blank limit _ read =>
      obtain ⟨fits, apart, others⟩ := wellFormed_cons.mp formed
      rcases fits with complete | ⟨unterminated, rfl⟩
      · have following : ofText (gap ++ later) = rest := by
          rw [ofText_blanks (Text.blank_iff_subset.mpr blank), read others]
        exact ofText_complete complete spelled limit following apart
      · rw [limit.unterminated unterminated, List.append_nil]
        cases unterminated with
        | string unclosed =>
            cases spelled
            exact ofText_openString (CodePoint.mark_eq_quote_iff.mpr rfl) unclosed

/-- The lexemes of a text are a list exactly if the list is well formed and the text spells it.  So
every text has one such list, and no text spells two. -/
theorem ofText_eq_iff {text : Text} {lexemes : List Lexeme} :
    ofText text = lexemes ↔ WellFormed lexemes ∧ Spells lexemes text := by
  constructor
  · rintro rfl
    exact ⟨wellFormed_ofText text, spells_ofText text⟩
  · rintro ⟨formed, gap, later, blank, spells, rfl⟩
    rw [ofText_blanks (Text.blank_iff_subset.mpr blank), ofText_of_spellsOn formed spells]

end Lexeme

end Reindent
