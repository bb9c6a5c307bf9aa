import Reindent.Proofs.EscapeSpelling

/-!
Backslashes that start no escape.

Such a backslash stays, and so does the byte after it.  A code point that is no byte is another
matter: by then it is a numeric escape with a backslash of its own, and the two backslashes make an
escape together.  What is left of the numeric escape stands for itself, so the code point comes out
as the letter and the digits that were to spell it.

Main statement: what a text is read as in which no backslash starts an escape (`decode_stray`).
-/

namespace Reindent.Escape

/-- The code points that start an escape behind a backslash. -/
def escapeStarts : Text := "\n\\'\"abfnrtvxuUN01234567"

/-- Behind every backslash stands a code point that starts no escape. -/
def Stray (text : Text) : Prop :=
  ∀ back, CodePoint.ofChar '\\' :: back <:+ text → ∃ c ∈ back.head?, c ∉ escapeStarts

/-- What a code point directly behind a stray backslash is read as. -/
def behindBackslash (c : CodePoint) : Text :=
  if c.value < 0x100 then [c]
  else if c.value < 0x10000 then .ofChar 'u' :: Hex.numeral 4 c.value
  else .ofChar 'U' :: Hex.numeral 8 c.value

/-- What a text with stray backslashes is read as; `behind` tells whether it stands directly behind
a backslash itself. -/
def strayMeaning (behind : Bool) : Text → Text
  | [] => []
  | c :: rest =>
      (if behind then behindBackslash c else [c]) ++
        strayMeaning (decide (c = .ofChar '\\')) rest

/-- No code point directly behind a backslash is above the bytes. -/
def NarrowBehind (text : Text) : Prop :=
  ∀ c, [.ofChar '\\', c] <:+: text → c.value < 0x100

theorem stray_nil : Stray [] := by
  intro back suffix
  cases List.suffix_nil.mp suffix

theorem stray_cons {c : CodePoint} {rest : Text} :
    Stray (c :: rest) ↔
      (c = .ofChar '\\' → ∃ d ∈ rest.head?, d ∉ escapeStarts) ∧ Stray rest := by
  constructor
  · intro stray
    constructor
    · rintro rfl
      exact stray rest List.suffix_rfl
    · intro back suffix
      exact stray back (suffix.trans (List.suffix_cons c rest))
  · rintro ⟨here, later⟩ back suffix
    rcases List.suffix_cons_iff.mp suffix with whole | inside
    · cases whole
      exact here rfl
    · exact later back inside

theorem narrowBehind_cons {c : CodePoint} {rest : Text} :
    NarrowBehind (c :: rest) ↔
      (c = .ofChar '\\' → ∀ d ∈ rest.head?, d.value < 0x100) ∧ NarrowBehind rest := by
  have front : ∀ d, [.ofChar '\\', d] <+: c :: rest ↔ c = .ofChar '\\' ∧ d ∈ rest.head? := by
    intro d
    cases rest <;> simp [eq_comm]
  simp only [NarrowBehind, List.infix_cons_iff, front]
  constructor
  · intro narrow
    exact ⟨fun same d next => narrow d (.inl ⟨same, next⟩), fun d inside => narrow d (.inr inside)⟩
  · rintro ⟨here, later⟩ d (⟨same, next⟩ | inside)
    · exact here same d next
    · exact later d inside

instance decidableStray : (text : Text) → Decidable (Stray text)
  | [] => .isTrue stray_nil
  | _ :: rest =>
      let _ := decidableStray rest
      decidable_of_iff _ stray_cons.symm

/-! ### Reading -/

/-- What a byte behind a backslash can mean, it means for a code point that starts an escape. -/
theorem mem_escapeStarts {c : CodePoint} (narrow : c.value < 0x100)
    (starts : (shortEscape? (byteOf c)).isSome ∨ (widthOf? (byteOf c)).isSome ∨
      (byteOf c).toNat = 'N'.toNat ∨ isOctalDigit (byteOf c)) : c ∈ escapeStarts := by
  have all : ∀ code : Fin 0x100,
      ((shortEscape? (byteOf (.ofNat code.val))).isSome ∨
        (widthOf? (byteOf (.ofNat code.val))).isSome ∨
        (byteOf (.ofNat code.val)).toNat = 'N'.toNat ∨
        isOctalDigit (byteOf (.ofNat code.val))) →
      CodePoint.ofNat code.val ∈ escapeStarts := by
    decide +kernel
  have here := all ⟨c.value, narrow⟩
  rw [CodePoint.ofNat_value] at here
  exact here starts

/-- A backslash before a byte that starts no escape stays, and so does the byte. -/
theorem escapeAt_stray {c : CodePoint} (narrow : c.value < 0x100) (plain : c ∉ escapeStarts)
    {names : Names} (rest : Bytes) :
    escapeAt names (byteOf c :: rest) = ⟨1, .ok [.ofChar '\\', c]⟩ := by
  have meaningless := mt (mem_escapeStarts narrow) plain
  simp only [not_or, Bool.not_eq_true, Option.isSome_eq_false_iff, Option.isNone_iff_eq_none]
    at meaningless
  obtain ⟨short, wide, unnamed, other⟩ := meaningless
  have digits : ((byteOf c :: rest).take 3).takeWhile isOctalDigit = [] := by simp [other]
  simp only [escapeAt, short, wide, if_neg unnamed, digits, List.isEmpty_nil, if_true,
    pointOf_byteOf narrow]

theorem isItem_stray {c : CodePoint} (narrow : c.value < 0x100) (plain : c ∉ escapeStarts) :
    IsItem [.ofChar '\\', c] [.ofChar '\\', c] :=
  isItem_escape (by simpa using narrow) fun _ rest => escapeAt_stray narrow plain rest

/-- Without backslashes, code points are read as they stand, whatever follows them. -/
theorem reads_plain {front escaped following : Text} (plain : ∀ c ∈ front, c ≠ .ofChar '\\')
    (later : Reads (bytesOf escaped) following) :
    Reads (bytesOf (front ++ escaped)) (front ++ following) := by
  induction front with
  | nil => exact later
  | cons c rest behind =>
      obtain ⟨first, others⟩ := List.forall_mem_cons.mp plain
      exact (isItem_itself first).reads (behind others)

theorem hexEscape_of_wide {c : CodePoint} (wide : ¬c.value < 0x100) :
    c.hexEscape = .ofChar '\\' :: behindBackslash c := by
  unfold CodePoint.hexEscape CodePoint.hexEscapeOf EscapeWidth.narrowest behindBackslash
  rw [if_neg wide, if_neg wide]
  split <;> rfl

theorem behindBackslash_ne_backslash {c : CodePoint} (wide : ¬c.value < 0x100) :
    ∀ d ∈ behindBackslash c, d ≠ .ofChar '\\' := by
  have digits := (numeral_narrowest c).hexDigits
  have split := hexEscape_of_wide wide
  unfold CodePoint.hexEscape CodePoint.hexEscapeOf at split
  rw [← List.tail_eq_of_cons_eq split]
  refine List.forall_mem_cons.mpr ⟨?_, ?_⟩
  · cases EscapeWidth.narrowest c <;> decide
  · rintro d member rfl
    cases digits _ member

/-- The backslash before a code point that is no byte takes the backslash of its numeric escape. -/
theorem reads_paired {c : CodePoint} {escaped following : Text} (wide : ¬c.value < 0x100)
    (later : Reads (bytesOf escaped) following) :
    Reads (bytesOf (.ofChar '\\' :: c :: escaped))
      (.ofChar '\\' :: (behindBackslash c ++ following)) := by
  have bytes : bytesOf (.ofChar '\\' :: c :: escaped) =
      bytesOf ([.ofChar '\\', .ofChar '\\'] ++ (behindBackslash c ++ escaped)) := by
    calc bytesOf (.ofChar '\\' :: c :: escaped)
        = bytesOf [.ofChar '\\'] ++ (bytesOf [c] ++ bytesOf escaped) := by
          rw [← bytesOf_append, ← bytesOf_append]
          rfl
      _ = bytesOf [.ofChar '\\'] ++ (bytesOf (.ofChar '\\' :: behindBackslash c) ++
            bytesOf escaped) := by
          rw [← hexEscape_of_wide wide, bytesOf_hexEscape wide]
      _ = bytesOf ([.ofChar '\\', .ofChar '\\'] ++ (behindBackslash c ++ escaped)) := by
          rw [← bytesOf_append, ← bytesOf_append]
          rfl
  have pair : IsItem [.ofChar '\\', .ofChar '\\'] [.ofChar '\\'] :=
    isItem_short (by decide) (by decide)
  rw [bytes]
  exact pair.reads (reads_plain (behindBackslash_ne_backslash wide) later)

/-- A text with stray backslashes is read backslash by backslash: each one goes with the code point
behind it, which is no backslash, and then the rest stands alone. -/
theorem Stray.reads : ∀ {text : Text}, Stray text → Reads (bytesOf text) (strayMeaning false text)
  | [], _ => Reads.nil
  | c :: rest, stray => by
      obtain ⟨here, later⟩ := stray_cons.mp stray
      by_cases backslash : c = .ofChar '\\'
      · subst backslash
        obtain ⟨d, next, plain⟩ := here rfl
        cases rest with
        | nil => cases next
        | cons e rest =>
            cases next
            have single : d ≠ .ofChar '\\' := by
              rintro rfl
              exact plain (by decide)
            have behind := Stray.reads (stray_cons.mp later).2
            have meaning : strayMeaning false (.ofChar '\\' :: d :: rest) =
                .ofChar '\\' :: (behindBackslash d ++ strayMeaning false rest) := by
              simp [strayMeaning, single]
            rw [meaning]
            by_cases narrow : d.value < 0x100
            · rw [behindBackslash, if_pos narrow]
              exact (isItem_stray narrow plain).reads behind
            · exact reads_paired narrow behind
      · have meaning : strayMeaning false (c :: rest) = [c] ++ strayMeaning false rest := by
          simp [strayMeaning, backslash]
        rw [meaning]
        exact (isItem_itself backslash).reads (Stray.reads later)

/-! ### Texts that mean themselves -/

theorem head_behindBackslash {c : CodePoint} (wide : ¬c.value < 0x100) (following : Text) :
    (behindBackslash c ++ following).head? ≠ some c := by
  have different : ∀ letter : Char, letter.toNat < 0x100 → CodePoint.ofChar letter ≠ c := by
    rintro letter narrow rfl
    exact wide narrow
  unfold behindBackslash
  rw [if_neg wide]
  split
  · simpa using different 'u' (by decide)
  · simpa using different 'U' (by decide)

theorem strayMeaning_eq_self {behind : Bool} {text : Text} :
    strayMeaning behind text = text ↔
      (behind = true → ∀ c ∈ text.head?, c.value < 0x100) ∧ NarrowBehind text := by
  induction text generalizing behind with
  | nil =>
      have nothing : NarrowBehind [] := fun c inside => by cases List.infix_nil.mp inside
      simp [strayMeaning, nothing]
  | cons c rest later =>
      rw [narrowBehind_cons, strayMeaning]
      by_cases spelled : behind = true ∧ ¬c.value < 0x100
      · obtain ⟨rfl, wide⟩ := spelled
        rw [if_pos rfl]
        constructor
        · intro same
          exact absurd (congrArg List.head? same) (head_behindBackslash wide _)
        · rintro ⟨narrow, -⟩
          exact absurd (narrow rfl c rfl) wide
      · have kept : (if behind then behindBackslash c else [c]) = [c] := by
          cases behind with
          | false => rfl
          | true =>
              have narrow : c.value < 0x100 := by simpa using spelled
              exact if_pos narrow
        have first : behind = true → ∀ d ∈ (c :: rest).head?, d.value < 0x100 := by
          simpa using spelled
        rw [kept, List.singleton_append, List.cons_inj_right, later, decide_eq_true_eq,
          and_iff_right first]

/-- Where no backslash starts an escape, a text is read as itself, but for the code points above the
bytes that stand directly behind a backslash: of these the letter and the digits of their numeric
escapes are read. -/
theorem decode_stray (names : Names) {text : Text} (stray : Stray text) :
    decode names text = .ok (strayMeaning false text) ∧
      (decode names text = .ok text ↔ ∀ c, [.ofChar '\\', c] <:+: text → c.value < 0x100) := by
  have read : decode names text = .ok (strayMeaning false text) := stray.reads names 0
  refine ⟨read, ?_⟩
  rw [read, Except.ok.injEq, strayMeaning_eq_self]
  exact and_iff_right fun behind => nomatch behind

/-- Backslashes before a digit that is not octal, before a letter with four hexadecimal digits and
before one with eight; the last letter has no backslash before it. -/
theorem decode_stray_of_letters :
    Stray "\\8\\Ā0\\😀Ā" ∧
      decode .none "\\8\\Ā0\\😀Ā" = .ok "\\8\\u01000\\U0001f600Ā" ∧
      decode .none "\\8\\Ā0\\😀Ā" ≠ .ok "\\8\\Ā0\\😀Ā" := by
  have stray : Stray "\\8\\Ā0\\😀Ā" := by decide +kernel
  obtain ⟨read, itself⟩ := decode_stray .none stray
  refine ⟨stray, ?_, ?_⟩
  · rw [read]
    decide +kernel
  · intro same
    have narrow := itself.mp same (.ofChar 'Ā') ⟨"\\8", "0\\😀Ā", by decide +kernel⟩
    exact absurd narrow (by decide)

end Reindent.Escape
