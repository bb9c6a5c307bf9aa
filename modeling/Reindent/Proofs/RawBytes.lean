import Reindent.Proofs.Cutting
import Reindent.Proofs.Rendering
import Reindent.Proofs.StrayBytes

/-!
Bytes that need not be a text, as layout reads them and as they are read once decoded.

Layout goes byte by byte, so to it bytes are a row of symbols with the numbers of the bytes, and
what holds of the layout of texts holds of this row.  Decoding makes fewer symbols of the bytes
outside ASCII, but leaves ASCII alone and reads nothing across it.  So a lexeme of decoded bytes is
a lexeme of the bytes as symbols, decoded by itself.

Main statements: `cut_decodeEscaped` for decoding, and `symbols_written` for layout.
-/

namespace Reindent

open Utf8

/-! ### Bytes as symbols -/

/-- The symbol with the number of a byte. -/
def symbolOf (byte : UInt8) : CodePoint := .ofNat byte.toNat

/-- Bytes as a row of symbols. -/
def symbols (bytes : Bytes) : Text := bytes.map symbolOf

/-- The bytes of a row of symbols. -/
def ofSymbols (text : Text) : Bytes := text.map fun c => UInt8.ofNat c.value

@[simp] theorem value_symbolOf (byte : UInt8) : (symbolOf byte).value = byte.toNat := by
  have small := byte.toNat_lt
  exact CodePoint.value_ofNat (by omega)

@[simp] theorem code_symbolOf (byte : UInt8) : (symbolOf byte).code = byteCode byte := by
  rw [CodePoint.code, value_symbolOf, byteCode]

@[simp] theorem mark_symbolOf (byte : UInt8) : (symbolOf byte).mark = byteMark byte := by
  rw [CodePoint.mark, code_symbolOf, byteMark]

@[simp] theorem symbols_nil : symbols [] = [] := rfl

@[simp] theorem symbols_cons (byte : UInt8) (rest : Bytes) :
    symbols (byte :: rest) = symbolOf byte :: symbols rest := rfl

@[simp] theorem symbols_append (front back : Bytes) :
    symbols (front ++ back) = symbols front ++ symbols back := List.map_append

@[simp] theorem ofSymbols_symbols (bytes : Bytes) : ofSymbols (symbols bytes) = bytes := by
  simp [ofSymbols, symbols, Function.comp_def]

/-- Symbols with a meaning are ASCII. -/
theorem ascii_of_byteMark {byte : UInt8} (meaning : byteMark byte ≠ .ordinary) :
    byte.toNat < 0x80 := by
  rw [← mark_symbolOf] at meaning
  rw [← value_symbolOf]
  exact CodePoint.ascii_of_mark meaning

/-- A symbol outside ASCII belongs to an atom, and ends no string and no comment. -/
theorem CodePoint.outside {c : CodePoint} (above : 0x80 ≤ c.value) :
    c.mark = .ordinary ∧ c.code ≠ Code.quote ∧ c.code ≠ Code.backslash ∧
      c.code ≠ Code.newline := by
  have high : (0x80 : Int) ≤ c.code := Int.ofNat_le.mpr above
  refine ⟨Mark.ofCode_eq_ordinary (.inr high), ?_, ?_, ?_⟩ <;> intro same <;> rw [same] at high <;>
    exact absurd high (by decide)

/-! ### Layout of bytes -/

/-- Layout of bytes is layout of their symbols. -/
theorem State.traceText_symbols (state : State) (bytes : Bytes) :
    state.traceText (symbols bytes) = state.trace bytes := by
  induction bytes generalizing state with
  | nil => rfl
  | cons byte rest later =>
      rw [symbols_cons, traceText_cons, trace_cons, code_symbolOf, later]

theorem symbols_bytesOfText {text : Text} (ascii : ∀ c ∈ text, c.value < 0x80) :
    symbols (bytesOfText text) = text := by
  induction text with
  | nil => rfl
  | cons c rest later =>
      obtain ⟨small, others⟩ := List.forall_mem_cons.mp ascii
      rw [bytesOfText_cons, bytesOf_of_ascii small, symbols_append, later others, symbols_cons,
        symbolOf, toNat_byte (by omega), CodePoint.ofNat_value]
      rfl

/-- The bytes of a piece that layout tells are the symbols that it adds. -/
theorem symbols_pieceBytes {margin : Margin} (blank : margin.indentation.isBlank = true)
    {state : State} {bytes : Bytes} {piece : Piece} (told : piece ∈ (state.trace bytes).2) :
    symbols (piece.bytes margin) = piece.text margin.indentation.unit := by
  rcases State.mem_trace told with ⟨level, rfl⟩ | rfl | ⟨mode, byte, -, rfl⟩
  · have indented : Text.Blank (margin.indentation.text level) :=
      (Indentation.isBlank_iff.mp blank).repeated level.toNat
    rw [Piece.bytes, Margin.breakBytes, Indentation.bytes_eq, symbols_cons,
      symbols_bytesOfText fun c => indented.ascii]
    rfl
  · rfl
  · rw [← code_symbolOf, Piece.text_written, code_symbolOf]
    cases mode <;> simp [Mode.written, Piece.bytes]

/-- What layout writes for bytes, with a blank unit, are the symbols that the rules lay out. -/
theorem symbols_written {margin : Margin} (blank : margin.indentation.isBlank = true)
    (bytes : Bytes) :
    symbols ((State.initial.trace bytes).2.flatMap (Piece.bytes margin)) =
      Lexeme.layout margin.indentation.unit (symbols bytes) := by
  rw [← State.laid_initial, State.laid, State.traceText_symbols, symbols, List.map_flatMap]
  exact List.flatMap_congr fun piece told => symbols_pieceBytes blank told

/-! ### Strings and comments of decoded bytes -/

/-- How the body of a string is read from its front: up to a quote, if it may end with one, or up to
the end of the text, and a backslash takes the next symbol with it, if there need be one. -/
def BodyStep (closing dangling : Prop) (body : Text → Prop) : Prop :=
  ∀ c rest, body (c :: rest) ↔
    c.code = Code.quote ∧ closing ∧ rest = [] ∨
      c.code = Code.backslash ∧ (dangling ∧ rest = [] ∨ ∃ d later, rest = d :: later ∧ body later) ∨
      (c.code ≠ Code.quote ∧ c.code ≠ Code.backslash) ∧ body rest

namespace Lexeme

theorem bodyStep_closed : BodyStep True False ClosedBody := by
  intro c rest
  constructor
  · intro closed
    cases closed with
    | quote closing => exact .inl ⟨closing, trivial, rfl⟩
    | escaped backslash later => exact .inr (.inl ⟨backslash, .inr ⟨_, _, rfl, later⟩⟩)
    | plain unquoted unescaped later => exact .inr (.inr ⟨⟨unquoted, unescaped⟩, later⟩)
  · rintro (⟨closing, -, rfl⟩ | ⟨backslash, ⟨none, -⟩ | ⟨d, later, rfl, closed⟩⟩ |
      ⟨⟨unquoted, unescaped⟩, closed⟩)
    · exact .quote closing
    · exact none.elim
    · exact .escaped backslash closed
    · exact .plain unquoted unescaped closed

theorem bodyStep_open : BodyStep False True OpenBody := by
  intro c rest
  constructor
  · intro unclosed
    cases unclosed with
    | dangling backslash => exact .inr (.inl ⟨backslash, .inl ⟨trivial, rfl⟩⟩)
    | escaped backslash later => exact .inr (.inl ⟨backslash, .inr ⟨_, _, rfl, later⟩⟩)
    | plain unquoted unescaped later => exact .inr (.inr ⟨⟨unquoted, unescaped⟩, later⟩)
  · rintro (⟨-, none, -⟩ | ⟨backslash, ⟨-, rfl⟩ | ⟨d, later, rfl, unclosed⟩⟩ |
      ⟨⟨unquoted, unescaped⟩, unclosed⟩)
    · exact none.elim
    · exact .dangling backslash
    · exact .escaped backslash unclosed
    · exact .plain unquoted unescaped unclosed

end Lexeme

namespace Utf8.Blurs

variable {bytes : Bytes} {text : Text}

theorem eq_nil (blurs : Blurs bytes text) (nothing : bytes = []) : text = [] := by
  cases blurs with
  | nil => rfl
  | ascii => cases nothing
  | outside something => exact absurd (List.append_eq_nil_iff.mp nothing).1 something

theorem bytes_eq_nil (blurs : Blurs bytes text) (nothing : text = []) : bytes = [] := by
  cases blurs with
  | nil => rfl
  | ascii => cases nothing
  | outside => cases nothing

/-- Decoded bytes are the body of a string if the bytes are.  Of several bytes that become one
symbol, a backslash may take the first with it; the others do not matter. -/
theorem body {closing dangling : Prop} {body : Text → Prop} (step : BodyStep closing dangling body)
    (blurs : Blurs bytes text) :
    (body (symbols bytes) → body text) ∧
      ((∃ c later, symbols bytes = c :: later ∧ body later) →
        ∃ c later, text = c :: later ∧ body later) := by
  induction blurs with
  | nil => exact ⟨id, id⟩
  | @ascii byte c rest text small same blurs later =>
      obtain ⟨within, behind⟩ := later
      have code : (symbolOf byte).code = c.code := by
        rw [CodePoint.code, CodePoint.code, value_symbolOf, same]
      have empty : symbols rest = [] → text = [] :=
        fun none => blurs.eq_nil (List.map_eq_nil_iff.mp none)
      constructor
      · intro whole
        rw [symbols_cons, step, code] at whole
        rw [step]
        rcases whole with ⟨quote, ends, none⟩ | ⟨backslash, ⟨ends, none⟩ | more⟩ | ⟨plain, more⟩
        · exact .inl ⟨quote, ends, empty none⟩
        · exact .inr (.inl ⟨backslash, .inl ⟨ends, empty none⟩⟩)
        · exact .inr (.inl ⟨backslash, .inr (behind more)⟩)
        · exact .inr (.inr ⟨plain, within more⟩)
      · rintro ⟨d, later, whole, more⟩
        cases whole
        exact ⟨c, text, rfl, within more⟩
  | @outside bytes rest c text something outside above blurs later =>
      have passed : ∀ row : Bytes, (∀ byte ∈ row, 0x80 ≤ byte.toNat) →
          body (symbols (row ++ rest)) → body text := by
        intro row high whole
        induction row with
        | nil => exact later.1 whole
        | cons byte row further =>
            obtain ⟨first, others⟩ := List.forall_mem_cons.mp high
            rw [← value_symbolOf] at first
            obtain ⟨-, unquoted, unescaped, -⟩ := CodePoint.outside first
            rw [List.cons_append, symbols_cons, step] at whole
            rcases whole with ⟨quote, -⟩ | ⟨backslash, -⟩ | ⟨-, more⟩
            · exact absurd quote unquoted
            · exact absurd backslash unescaped
            · exact further others more
      obtain ⟨-, unquoted, unescaped, -⟩ := CodePoint.outside above
      constructor
      · intro whole
        exact (step c text).mpr (.inr (.inr ⟨⟨unquoted, unescaped⟩, passed bytes outside whole⟩))
      · rintro ⟨d, later, whole, more⟩
        obtain ⟨byte, row, rfl⟩ := List.exists_cons_of_ne_nil something
        cases whole
        exact ⟨c, text, rfl, passed row (List.forall_mem_cons.mp outside).2 more⟩

/-- Decoded bytes hold a newline only if the bytes do. -/
theorem oneLine (blurs : Blurs bytes text) (line : Lexeme.OneLine (symbols bytes)) :
    Lexeme.OneLine text := by
  intro c member
  rcases blurs.mem member with above | ⟨byte, within, same⟩
  · exact (CodePoint.outside above).2.2.2
  · have equal : c = symbolOf byte := CodePoint.ext (by rw [same, value_symbolOf])
    rw [equal]
    exact line _ (List.mem_map_of_mem within)

/-- Decoded bytes of an atom are of an atom. -/
theorem ordinary (blurs : Blurs bytes text)
    (plain : ∀ byte ∈ bytes, byteMark byte = .ordinary) : ∀ c ∈ text, c.mark = .ordinary := by
  intro c member
  rcases blurs.mem member with above | ⟨byte, within, same⟩
  · exact (CodePoint.outside above).1
  · have equal : c = symbolOf byte := CodePoint.ext (by rw [same, value_symbolOf])
    rw [equal, mark_symbolOf]
    exact plain byte within

end Utf8.Blurs

/-! ### Induction -/

open Lexeme

/-- A stretch of an atom, which may be none, stands in front of every byte sequence. -/
theorem Bytes.atom_cases (bytes : Bytes) :
    ∃ run rest, bytes = run ++ rest ∧ (∀ byte ∈ run, byteMark byte = .ordinary) ∧
      ∀ byte ∈ rest.head?, byteMark byte ≠ .ordinary := by
  induction bytes with
  | nil => exact ⟨[], [], rfl, by simp, by simp⟩
  | cons byte bytes later =>
      by_cases ordinary : byteMark byte = .ordinary
      · obtain ⟨run, rest, rfl, belong, ends⟩ := later
        exact ⟨byte :: run, rest, rfl, List.forall_mem_cons.mpr ⟨ordinary, belong⟩, ends⟩
      · refine ⟨[], byte :: bytes, rfl, by simp, ?_⟩
        intro other member
        cases member
        exact ordinary

/-- Every byte sequence is built from its end by whitespace, stretches of atoms, punctuation,
strings and comments. -/
@[elab_as_elim]
theorem Bytes.tokenInduction {motive : Bytes → Prop}
    (nil : motive [])
    (blank : ∀ byte rest, byteMark byte = .blank → motive rest → motive (byte :: rest))
    (atom : ∀ run rest, run ≠ [] → (∀ byte ∈ run, byteMark byte = .ordinary) →
      (∀ byte ∈ rest.head?, byteMark byte ≠ .ordinary) → motive rest → motive (run ++ rest))
    (punctuation : ∀ byte rest, (byteMark byte).isPunctuation = true → motive rest →
      motive (byte :: rest))
    (closedString : ∀ byte body rest, byteMark byte = .quote → ClosedBody (symbols body) →
      motive rest → motive (byte :: (body ++ rest)))
    (openString : ∀ byte body, byteMark byte = .quote → OpenBody (symbols body) →
      motive (byte :: body))
    (comment : ∀ byte run rest, byteMark byte = .hash → OneLine (symbols run) → motive rest →
      motive (byte :: (run ++ 0x0A :: rest)))
    (lastComment : ∀ byte run, byteMark byte = .hash → OneLine (symbols run) →
      motive (byte :: run))
    (bytes : Bytes) : motive bytes := by
  induction length : bytes.length using Nat.strongRecOn generalizing bytes with
  | ind size shorter =>
      cases bytes with
      | nil => exact nil
      | cons byte rest =>
          rw [List.length_cons] at length
          have next : motive rest := shorter rest.length (by omega) rest rfl
          cases mark : byteMark byte with
          | blank => exact blank byte rest mark next
          | opener | closer | colon | comma =>
              exact punctuation byte rest (by rw [mark]; rfl) next
          | ordinary =>
              obtain ⟨run, behind, rfl, belong, ends⟩ := Bytes.atom_cases rest
              rw [List.length_append] at length
              exact atom (byte :: run) behind (List.cons_ne_nil _ _)
                (List.forall_mem_cons.mpr ⟨mark, belong⟩) ends
                (shorter behind.length (by omega) behind rfl)
          | quote =>
              rcases body_cases (symbols rest) with unclosed | ⟨body, remaining, closed, whole⟩
              · exact openString byte rest mark unclosed
              · obtain ⟨front, back, rfl, rfl, rfl⟩ := List.map_eq_append_iff.mp whole
                rw [List.length_append] at length
                exact closedString byte front back mark closed
                  (shorter back.length (by omega) back rfl)
          | hash =>
              rcases line_cases (symbols rest) with line | ⟨run, remaining, line, whole⟩
              · exact lastComment byte rest mark line
              · obtain ⟨front, back, rfl, rfl, newline⟩ := List.map_eq_append_iff.mp whole
                obtain ⟨last, behind, rfl, same, rfl⟩ := List.map_eq_cons_iff.mp newline
                obtain rfl : last = 0x0A := by
                  rw [← UInt8.toNat_inj, ← value_symbolOf, same]
                  rfl
                rw [List.length_append, List.length_cons] at length
                exact comment byte front behind mark line
                  (shorter behind.length (by omega) behind rfl)

/-! ### Lexemes of decoded bytes -/

namespace Utf8

/-- The last symbol of a string that is closed is a quote. -/
theorem quote_of_closedBody {body : Text} (closed : ClosedBody body) :
    ∃ front c, body = front ++ [c] ∧ c.code = Code.quote := by
  induction closed with
  | @quote c closing => exact ⟨[], c, rfl, closing⟩
  | @escaped c d _ _ _ later =>
      obtain ⟨front, last, rfl, quote⟩ := later
      exact ⟨c :: d :: front, last, rfl, quote⟩
  | @plain c _ _ _ _ later =>
      obtain ⟨front, last, rfl, quote⟩ := later
      exact ⟨c :: front, last, rfl, quote⟩

/-- What a row of symbols is once its bytes are decoded. -/
def decoded (text : Text) : Text := decodeEscaped (ofSymbols text)

@[simp] theorem decoded_symbols (bytes : Bytes) :
    decoded (symbols bytes) = decodeEscaped bytes := by
  rw [decoded, ofSymbols_symbols]

/-- A byte with a meaning is decoded by itself. -/
theorem decodeEscaped_meaning {byte : UInt8} (meaning : byteMark byte ≠ .ordinary) (rest : Bytes) :
    decodeEscaped (byte :: rest) = symbolOf byte :: decodeEscaped rest :=
  decodeEscaped_cons (ascii_of_byteMark meaning) rest

theorem startsAscii_of_meaning {bytes : Bytes}
    (meaning : ∀ byte ∈ bytes.head?, byteMark byte ≠ .ordinary) : StartsAscii bytes :=
  fun byte member => ascii_of_byteMark (meaning byte member)

/-- A string that is closed ends with ASCII. -/
theorem decodeEscaped_closedBody {body : Bytes} (closed : ClosedBody (symbols body))
    (rest : Bytes) : decodeEscaped (body ++ rest) = decodeEscaped body ++ decodeEscaped rest := by
  obtain ⟨front, c, whole, quote⟩ := quote_of_closedBody closed
  obtain ⟨first, last, rfl, rfl, single⟩ := List.map_eq_append_iff.mp whole
  obtain ⟨byte, rfl, rfl⟩ := List.map_eq_singleton_iff.mp single
  apply decodeEscaped_append_of_getLast
  intro other member
  rw [List.getLast?_concat, Option.mem_some_iff] at member
  have number : (byte.toNat : Int) = 0x22 := by
    rw [code_symbolOf] at quote
    exact quote
  rw [← member]
  omega

/-- Decoded bytes that follow an atom do not go on with it. -/
theorem endsAtom_decodeEscaped {rest : Bytes}
    (ends : ∀ byte ∈ rest.head?, byteMark byte ≠ .ordinary) : EndsAtom (decodeEscaped rest) := by
  cases rest with
  | nil =>
      rw [decodeEscaped_nil]
      intro c member
      cases member
  | cons byte rest =>
      rw [decodeEscaped_meaning (ends byte rfl)]
      intro c member
      cases member
      rw [mark_symbolOf]
      exact ends byte rfl

end Utf8

/-- A stretch of an atom is cut from the front of symbols as it is from bytes. -/
theorem cut_symbols_atom {run rest : Bytes} (something : run ≠ [])
    (ordinary : ∀ byte ∈ run, byteMark byte = .ordinary)
    (ends : ∀ byte ∈ rest.head?, byteMark byte ≠ .ordinary) :
    cut (symbols (run ++ rest)) = ⟨.atom, symbols run⟩ :: cut (symbols rest) := by
  have plain : ∀ c ∈ symbols run, c.mark = .ordinary := by
    intro c member
    obtain ⟨byte, within, rfl⟩ := List.mem_map.mp member
    rw [mark_symbolOf]
    exact ordinary byte within
  have stopped : EndsAtom (symbols rest) := by
    intro c member
    rw [symbols, List.head?_map] at member
    obtain ⟨byte, first, rfl⟩ := Option.map_eq_some_iff.mp member
    rw [mark_symbolOf]
    exact ends byte first
  rw [symbols_append, cut_atom (by simpa [symbols] using something) plain stopped]

theorem mapText_decoded (kind : LexemeKind) (bytes : Bytes) :
    Lexeme.mapText decoded ⟨kind, symbols bytes⟩ = ⟨kind, decodeEscaped bytes⟩ := by
  rw [Lexeme.mapText, decoded_symbols]

/-- A byte with a meaning stays in front of its lexeme. -/
theorem mapText_meaning {byte : UInt8} (meaning : byteMark byte ≠ .ordinary) (kind : LexemeKind)
    (rest : Bytes) :
    Lexeme.mapText decoded ⟨kind, symbolOf byte :: symbols rest⟩ =
      ⟨kind, symbolOf byte :: decodeEscaped rest⟩ := by
  rw [← symbols_cons, mapText_decoded, decodeEscaped_meaning meaning]

/-- Decoded bytes are cut into the lexemes of the bytes, each of them decoded by itself. -/
theorem cut_decodeEscaped (bytes : Bytes) :
    cut (decodeEscaped bytes) = (cut (symbols bytes)).map (Lexeme.mapText decoded) := by
  induction bytes using Bytes.tokenInduction with
  | nil =>
      rw [decodeEscaped_nil, symbols_nil, cut_nil]
      rfl
  | blank byte rest mark later =>
      have symbol : (symbolOf byte).mark = .blank := by rw [mark_symbolOf, mark]
      rw [decodeEscaped_meaning (by simp [mark]), cut_blank symbol, later, symbols_cons,
        cut_blank symbol]
  | atom run rest something ordinary ends later =>
      have blurs := blurs_decodeEscaped run
      have decoded_something : decodeEscaped run ≠ [] :=
        fun none => something (blurs.bytes_eq_nil none)
      rw [decodeEscaped_append (startsAscii_of_meaning ends), cut_atom decoded_something
        (blurs.ordinary ordinary) (endsAtom_decodeEscaped ends), later,
        cut_symbols_atom something ordinary ends, List.map_cons, mapText_decoded]
  | punctuation byte rest mark later =>
      have symbol : (symbolOf byte).mark.isPunctuation = true := by rw [mark_symbolOf, mark]
      have meaning : byteMark byte ≠ .ordinary := by
        intro ordinary
        rw [ordinary] at mark
        cases mark
      have alone := mapText_meaning meaning .punctuation []
      rw [decodeEscaped_nil, symbols_nil] at alone
      rw [decodeEscaped_meaning meaning, cut_punctuation symbol, later, symbols_cons,
        cut_punctuation symbol, List.map_cons, alone]
  | closedString byte body rest mark closed later =>
      have symbol : (symbolOf byte).mark = .quote := by rw [mark_symbolOf, mark]
      have meaning : byteMark byte ≠ .ordinary := by simp [mark]
      rw [decodeEscaped_meaning meaning, decodeEscaped_closedBody closed,
        cut_closedString symbol (((blurs_decodeEscaped body).body bodyStep_closed).1 closed), later,
        symbols_cons, symbols_append, cut_closedString symbol closed, List.map_cons,
        mapText_meaning meaning]
  | openString byte body mark unclosed =>
      have symbol : (symbolOf byte).mark = .quote := by rw [mark_symbolOf, mark]
      have meaning : byteMark byte ≠ .ordinary := by simp [mark]
      rw [decodeEscaped_meaning meaning,
        cut_openString symbol (((blurs_decodeEscaped body).body bodyStep_open).1 unclosed),
        symbols_cons, cut_openString symbol unclosed, List.map_singleton, mapText_meaning meaning]
  | comment byte run rest mark line later =>
      have symbol : (symbolOf byte).mark = .hash := by rw [mark_symbolOf, mark]
      have meaning : byteMark byte ≠ .ordinary := by simp [mark]
      have newline : byteMark 0x0A ≠ .ordinary := by decide
      have same : symbolOf 0x0A = .ofChar '\n' := by decide
      have starts : StartsAscii (0x0A :: rest) := by
        intro other member
        cases member
        decide
      rw [decodeEscaped_meaning meaning, decodeEscaped_append starts,
        decodeEscaped_meaning newline, same,
        cut_comment symbol ((blurs_decodeEscaped run).oneLine line), later, symbols_cons,
        symbols_append, symbols_cons, same, cut_comment symbol line, List.map_cons,
        mapText_meaning meaning]
  | lastComment byte run mark line =>
      have symbol : (symbolOf byte).mark = .hash := by rw [mark_symbolOf, mark]
      have meaning : byteMark byte ≠ .ordinary := by simp [mark]
      rw [decodeEscaped_meaning meaning,
        cut_lastComment symbol ((blurs_decodeEscaped run).oneLine line), symbols_cons,
        cut_lastComment symbol line, List.map_singleton, mapText_meaning meaning]

end Reindent
