import Reindent.Proofs.Levels

/-!
What reindenting a text returns or reports, in unbounded memory.

Surrogates are the only obstacle.  Those of the text are found when it is encoded, before layout
starts.  Those of the unit are found when they are first written, which is at the first line break
that has an indentation; the report names their first run in that indentation.  Everything else that
a conversion can report does not happen: levels stay within the 64-bit range, and what is written
for a text is the encoding of a text.

Main statement: which of these comes about, for every text and every unit (`reindent_outcome`).
-/

namespace Reindent

namespace SurrogateRun

/-- The run is the first of a text that nothing extends: before its front there are no surrogates,
and none follows it. -/
def IsFirstOf (run : SurrogateRun) (text : Text) : Prop :=
  ∃ before inside behind : Text,
    text = before ++ run.front :: (inside ++ behind) ∧
      (∀ c ∈ before, c.isSurrogate = false) ∧ (∀ c ∈ run.front :: inside, c.isSurrogate = true) ∧
      (∀ c ∈ behind.head?, c.isSurrogate = false) ∧
      run.first = before.length ∧ run.last = before.length + inside.length

/-- The run that is found is the first one. -/
theorem find?_isSurrogate_eq_some {run : SurrogateRun} {text : Text} :
    find? CodePoint.isSurrogate text = some run ↔ run.IsFirstOf text := by
  constructor
  · intro found
    have whole : text.takeWhile (fun c => !c.isSurrogate) ++
        text.dropWhile (fun c => !c.isSurrogate) = text := List.takeWhile_append_dropWhile
    unfold find? at found
    cases kept : text.dropWhile (fun c => !c.isSurrogate) with
    | nil =>
        rw [kept] at found
        cases found
    | cons front rest =>
        rw [kept] at found whole
        cases found
        have refused : front.isSurrogate = true := by
          have stopped := List.head?_dropWhile_not (fun c => !c.isSurrogate) text
          rw [kept] at stopped
          simpa using stopped
        refine ⟨text.takeWhile fun c => !c.isSurrogate, rest.takeWhile CodePoint.isSurrogate,
          rest.dropWhile CodePoint.isSurrogate, ?_, ?_, ?_, ?_, rfl, rfl⟩
        · rw [List.takeWhile_append_dropWhile, whole]
        · intro c member
          simpa using List.mem_takeWhile_imp member
        · exact List.forall_mem_cons.mpr ⟨refused, fun c member => List.mem_takeWhile_imp member⟩
        · intro c member
          have stopped := List.head?_dropWhile_not CodePoint.isSurrogate rest
          rw [Option.mem_def.mp member] at stopped
          simpa using stopped
  · rintro ⟨before, inside, behind, rfl, accepted, surrogates, ends, first, last⟩
    obtain ⟨refused, more⟩ := List.forall_mem_cons.mp surrogates
    rw [find?_of_split accepted refused more ends, ← last, ← first]

end SurrogateRun

/-! ### Line breaks with an indentation -/

/-- Whether a row of pieces holds a line break with an indentation. -/
def SomeIndented (pieces : List Piece) : Prop :=
  ∃ level, 1 ≤ level ∧ .lineBreak level ∈ pieces

/-- The first line break with an indentation in a row of pieces is at some depth. -/
def FirstIndentedAt (depth : Nat) (pieces : List Piece) : Prop :=
  1 ≤ depth ∧ ∃ front back, pieces = front ++ .lineBreak depth :: back ∧ ¬SomeIndented front

theorem Piece.mem_encoded_iff {level : Int} {piece : Piece} :
    .lineBreak level ∈ piece.encoded ↔ piece = .lineBreak level := by
  cases piece <;> simp [encoded, eq_comm]

/-- The line breaks of encoded pieces are those of the pieces. -/
theorem mem_flatMap_encoded {level : Int} {pieces : List Piece} :
    .lineBreak level ∈ pieces.flatMap Piece.encoded ↔ .lineBreak level ∈ pieces := by
  simp [List.mem_flatMap, Piece.mem_encoded_iff]

theorem someIndented_encoded {pieces : List Piece} :
    SomeIndented (pieces.flatMap Piece.encoded) ↔ SomeIndented pieces := by
  simp only [SomeIndented, mem_flatMap_encoded]

theorem FirstIndentedAt.encoded {depth : Nat} {pieces : List Piece}
    (first : FirstIndentedAt depth pieces) :
    FirstIndentedAt depth (pieces.flatMap Piece.encoded) := by
  obtain ⟨positive, front, back, rfl, none_before⟩ := first
  refine ⟨positive, front.flatMap Piece.encoded, back.flatMap Piece.encoded, ?_, ?_⟩
  · rw [List.flatMap_append, List.flatMap_cons]
    rfl
  · rwa [someIndented_encoded]

/-! ### The first line break that cannot be written -/

theorem encodable_repeated_iff {count : Nat} {unit : Text} (positive : 1 ≤ count) :
    Text.Encodable (repeated count unit) ↔ unit.Encodable := by
  constructor
  · intro encodable c inside
    obtain ⟨copies, rfl⟩ := Nat.exists_eq_add_of_le' positive
    rw [repeated_succ] at encodable
    exact encodable c (List.mem_append_left _ inside)
  · intro encodable c inside
    exact encodable c (mem_of_mem_repeated inside)

namespace Margin

section Unbounded

variable {margin : Margin} (unbounded : margin.memory = .unbounded)

include unbounded

/-- With memory for everything, a line break at a level in range fails for its surrogates only. -/
theorem breakFault?_of_unbounded {level : Int} (within : LevelInRange level) :
    margin.breakFault? level =
      (SurrogateRun.find? CodePoint.isSurrogate
        (repeated level.toNat margin.indentation.unit)).map BreakError.unencodable := by
  have fits : margin.renderFault? level = none := by
    simp [renderFault?, within, unbounded, Memory.fault?]
  rw [breakFault?, fits, SurrogateRun.ofCopies?_eq]

/-- Such a line break fails exactly if it has an indentation and the unit holds surrogates. -/
theorem breakFault?_eq_none_iff {level : Int} (within : LevelInRange level) :
    margin.breakFault? level = none ↔ (1 ≤ level → margin.indentation.unit.Encodable) := by
  rw [breakFault?_of_unbounded unbounded within, Option.map_eq_none_iff,
    SurrogateRun.find?_isSurrogate_eq_none]
  by_cases indented : 1 ≤ level
  · rw [encodable_repeated_iff (by omega)]
    simp [indented]
  · have none_open : level.toNat = 0 := by omega
    rw [none_open, repeated_zero]
    simp [indented, Text.Encodable.nil]

variable {pieces : List Piece}
  (within : ∀ level, .lineBreak level ∈ pieces → LevelInRange level)

include within

/-- All line breaks can be written exactly if none has an indentation or the unit can be
encoded. -/
theorem firstBreakFault?_eq_none_iff :
    margin.firstBreakFault? pieces = none ↔
      margin.indentation.unit.Encodable ∨ ¬SomeIndented pieces := by
  unfold firstBreakFault?
  rw [List.findSome?_eq_none_iff]
  constructor
  · intro fine
    by_cases indented : SomeIndented pieces
    · obtain ⟨level, positive, told⟩ := indented
      exact .inl ((breakFault?_eq_none_iff unbounded (within level told)).mp (fine _ told) positive)
    · exact .inr indented
  · intro writable piece told
    cases piece with
    | lineBreak level =>
        refine (breakFault?_eq_none_iff unbounded (within level told)).mpr fun positive => ?_
        exact writable.resolve_right fun nowhere => nowhere ⟨level, positive, told⟩
    | copied code | echoed code | space => rfl

/-- The line break that is reported is the first one with an indentation, for the first run of
surrogates in it. -/
theorem firstBreakFault?_eq_some {error : BreakError}
    (fault : margin.firstBreakFault? pieces = some error) :
    ∃ depth run, FirstIndentedAt depth pieces ∧
      run.IsFirstOf (repeated depth margin.indentation.unit) ∧ error = .unencodable run := by
  obtain ⟨front, piece, back, rfl, stopped, fine⟩ := List.findSome?_eq_some_iff.mp fault
  have within_front : ∀ level, .lineBreak level ∈ front → LevelInRange level := fun level told =>
    within level (List.mem_append_left _ told)
  cases piece with
  | lineBreak level =>
      have in_range := within level (List.mem_append_right _ (List.mem_cons_self ..))
      have failing : margin.breakFault? level = some error := stopped
      have indented : 1 ≤ level ∧ ¬margin.indentation.unit.Encodable := by
        rw [← Classical.not_imp, ← breakFault?_eq_none_iff unbounded in_range, failing]
        exact Option.some_ne_none error
      have nowhere : ¬SomeIndented front := by
        have passed := List.findSome?_eq_none_iff.mpr fine
        exact ((firstBreakFault?_eq_none_iff unbounded within_front).mp passed).resolve_left
          indented.2
      rw [breakFault?_of_unbounded unbounded in_range, Option.map_eq_some_iff] at failing
      obtain ⟨run, found, rfl⟩ := failing
      have same : ((level.toNat : Nat) : Int) = level := Int.toNat_of_nonneg (by omega)
      refine ⟨level.toNat, run, ⟨by omega, front, back, by rw [same], nowhere⟩, ?_, rfl⟩
      exact SurrogateRun.find?_isSurrogate_eq_some.mp found
  | copied code => cases stopped
  | echoed code => cases stopped
  | space => cases stopped

end Unbounded

end Margin

/-! ### The outcome -/

/-- A text that cannot be encoded is reported before layout starts. -/
theorem reindent_of_not_encodable (margin : Margin) {text : Text} (broken : ¬text.Encodable) :
    ∃ run, run.IsFirstOf text ∧ reindent margin text = .error (.unencodable run) := by
  rw [← SurrogateRun.find?_isSurrogate_eq_none, ← ne_eq, Option.ne_none_iff_exists'] at broken
  obtain ⟨run, found⟩ := broken
  refine ⟨run, SurrogateRun.find?_isSurrogate_eq_some.mp found, ?_⟩
  simp [reindent, throughBytes, Utf8.encode, found]

section Unbounded

variable (indentation : Indentation) {text : Text}
  (countable : text.length < 0x8000000000000000) (encodable : text.Encodable)

include countable encodable

/-- A text that can be encoded is returned if all its line breaks can be written. -/
theorem reindent_of_writable
    (writable : indentation.unit.Encodable ∨
      ¬SomeIndented (State.initial.trace (Utf8.bytesOfText text)).2) :
    ∃ output : Text, output.Encodable ∧
      reindentBytes ⟨indentation, .unbounded⟩ (Utf8.bytesOfText text) =
        .ok (Utf8.bytesOfText output) ∧
      reindent ⟨indentation, .unbounded⟩ text = .ok output := by
  rw [State.trace_bytesOfText, someIndented_encoded] at writable
  have fine := (@Margin.firstBreakFault?_eq_none_iff ⟨indentation, .unbounded⟩ rfl _
    fun level => levelInRange_traceText countable).mpr writable
  refine ⟨_, encodable_traceText encodable fine, ?_, ?_⟩
  · rw [reindentBytes, State.trace_bytesOfText, Margin.write_encoded, fine]
  · rw [reindent_eq _ encodable, fine]

/-- Otherwise the first line break with an indentation is reported. -/
theorem reindent_of_someIndented (broken : ¬indentation.unit.Encodable)
    (indented : SomeIndented (State.initial.trace (Utf8.bytesOfText text)).2) :
    ∃ (depth : Nat) (run : SurrogateRun),
      FirstIndentedAt depth (State.initial.trace (Utf8.bytesOfText text)).2 ∧
      run.IsFirstOf (repeated depth indentation.unit) ∧
      reindent ⟨indentation, .unbounded⟩ text = .error (.step (.lineBreak (.unencodable run))) := by
  rw [State.trace_bytesOfText] at indented ⊢
  rw [someIndented_encoded] at indented
  have within : ∀ level, .lineBreak level ∈ (State.initial.traceText text).2 →
      LevelInRange level := fun level => levelInRange_traceText countable
  cases fault : Margin.firstBreakFault? ⟨indentation, .unbounded⟩ (State.initial.traceText text).2
    with
  | none =>
      have writable := (Margin.firstBreakFault?_eq_none_iff rfl within).mp fault
      exact absurd indented (writable.resolve_left broken)
  | some error =>
      obtain ⟨depth, run, first, named, rfl⟩ :=
        Margin.firstBreakFault?_eq_some rfl within fault
      exact ⟨depth, run, first.encoded, named, by rw [reindent_eq _ encodable, fault]⟩

end Unbounded

/-- In unbounded memory, a text is returned without surrogates unless its own surrogates or those of
the unit are reported, the latter for the first line break that has an indentation.  Nothing else is
reported. -/
theorem reindent_outcome (indentation : Indentation) {text : Text}
    (countable : text.length < 0x8000000000000000) :
    (¬text.Encodable → ∃ run : SurrogateRun, run.IsFirstOf text ∧
      reindent ⟨indentation, .unbounded⟩ text = .error (.unencodable run)) ∧
    (text.Encodable → ¬indentation.unit.Encodable →
      SomeIndented (State.initial.trace (Utf8.bytesOfText text)).2 →
      ∃ (depth : Nat) (run : SurrogateRun),
        FirstIndentedAt depth (State.initial.trace (Utf8.bytesOfText text)).2 ∧
        run.IsFirstOf (repeated depth indentation.unit) ∧
        reindent ⟨indentation, .unbounded⟩ text = .error (.step (.lineBreak (.unencodable run)))) ∧
    (text.Encodable → (indentation.unit.Encodable ∨
        ¬SomeIndented (State.initial.trace (Utf8.bytesOfText text)).2) →
      ∃ output : Text, output.Encodable ∧
        reindentBytes ⟨indentation, .unbounded⟩ (Utf8.bytesOfText text) =
          .ok (Utf8.bytesOfText output) ∧
        reindent ⟨indentation, .unbounded⟩ text = .ok output) ∧
    ∀ error, reindent ⟨indentation, .unbounded⟩ text = .error error →
      ∃ run, error = .unencodable run ∨ error = .step (.lineBreak (.unencodable run)) := by
  refine ⟨reindent_of_not_encodable _, reindent_of_someIndented indentation countable,
    reindent_of_writable indentation countable, ?_⟩
  intro error failed
  by_cases encodable : text.Encodable
  · by_cases writable : indentation.unit.Encodable ∨
        ¬SomeIndented (State.initial.trace (Utf8.bytesOfText text)).2
    · obtain ⟨output, -, -, returned⟩ :=
        reindent_of_writable indentation countable encodable writable
      rw [returned] at failed
      cases failed
    · rw [not_or, not_not] at writable
      obtain ⟨depth, run, -, -, reported⟩ :=
        reindent_of_someIndented indentation countable encodable writable.1 writable.2
      rw [reported] at failed
      cases failed
      exact ⟨run, .inr rfl⟩
  · obtain ⟨run, -, reported⟩ := reindent_of_not_encodable ⟨indentation, .unbounded⟩ encodable
    rw [reported] at failed
    cases failed
    exact ⟨run, .inl rfl⟩

/-- The first two line breaks have no indentation, and the third one cannot be written. -/
theorem reindent_outcome_of_broken_unit :
    (Text.ofString "],[é").length < 0x8000000000000000 ∧
      ∃ (depth : Nat) (run : SurrogateRun),
        FirstIndentedAt depth
          (State.initial.trace (Utf8.bytesOfText (Text.ofString "],[é"))).2 ∧
        run.IsFirstOf (repeated depth [.ofChar '-', .ofNat 0xD800]) ∧
        reindent ⟨.custom [.ofChar '-', .ofNat 0xD800], .unbounded⟩ (Text.ofString "],[é") =
          .error (.step (.lineBreak (.unencodable run))) := by
  have countable : (Text.ofString "],[é").length < 0x8000000000000000 := by decide
  have encodable : (Text.ofString "],[é").Encodable := by decide
  have broken : ¬(Indentation.custom [.ofChar '-', .ofNat 0xD800]).unit.Encodable := by decide
  have indented : SomeIndented
      (State.initial.trace (Utf8.bytesOfText (Text.ofString "],[é"))).2 :=
    ⟨1, by decide, by decide +kernel⟩
  exact ⟨countable, (reindent_outcome _ countable).2.1 encodable broken indented⟩

end Reindent
