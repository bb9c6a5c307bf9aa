import Reindent.Proofs.Transitions

/-!
Runs in bounded memory.

Levels rise one by one: a line break goes one level deeper at most than the deepest one before it,
since an opener is followed by a line break before anything else can open.  So the first indentation
that is too long for the memory of a machine is longer by one unit at most than one that there was
memory for, and its length can still be counted.

Main statements: want of memory is all that tells a run from one in unbounded memory
(`run_bounded`, `reindent_bounded`).
-/

namespace Reindent

/-! ### Levels rise one by one -/

/-- Pieces whose line breaks go one level deeper at most than the deepest line break before them. -/
inductive Gradual : (deepest : Int) → List Piece → Prop where
  | nil {deepest : Int} : Gradual deepest []
  | lineBreak {deepest level : Int} {rest : List Piece} (near : level ≤ deepest + 1)
      (later : Gradual (max deepest level) rest) : Gradual deepest (.lineBreak level :: rest)
  | flat {deepest : Int} {piece : Piece} {rest : List Piece}
      (other : ∀ level, piece ≠ .lineBreak level) (later : Gradual deepest rest) :
      Gradual deepest (piece :: rest)

theorem Gradual.append_flat {deepest : Int} {pieces rest : List Piece}
    (flat : ∀ piece ∈ pieces, ∀ level, piece ≠ .lineBreak level) (later : Gradual deepest rest) :
    Gradual deepest (pieces ++ rest) := by
  induction pieces with
  | nil => exact later
  | cons piece others more =>
      obtain ⟨first, following⟩ := List.forall_mem_cons.mp flat
      exact .flat first (more following)

namespace State

/-- No container is deeper than the deepest line break, but for one that waits for its own. -/
def Follows (state : State) (deepest : Int) : Prop :=
  state.level ≤ deepest ∨
    state.mode = .normal ∧ state.breakPending = true ∧ state.level = deepest + 1

variable {state : State} {deepest : Int}

theorem flat_toldSymbol (state : State) (code : Int) :
    ∀ piece ∈ state.toldSymbol code, ∀ level, piece ≠ .lineBreak level := by
  unfold toldSymbol
  split
  · exact List.forall_mem_nil _
  · refine List.forall_mem_cons.mpr ⟨fun level => state.mode.written_ne_lineBreak code level, ?_⟩
    split
    · exact List.forall_mem_cons.mpr ⟨fun level => Piece.noConfusion, List.forall_mem_nil _⟩
    · exact List.forall_mem_nil _

/-- Copying changes no level. -/
theorem level_of_copying (copying : state.mode ≠ .normal) (code : Int) :
    (state.next code).1.level = state.level := by
  cases mode : state.mode with
  | normal => exact absurd mode copying
  | comment =>
      rw [next_of_comment mode, nextInComment]
      simp only
      split <;> rfl
  | string =>
      rw [next_of_string mode, nextInString]
      simp only
      repeat' split
      all_goals rfl

/-- A structural symbol stands at the level of the line break before it, and an opener opens one
more. -/
theorem level_of_visible {code : Int} (normal : state.mode = .normal)
    (visible : code ∉ Code.blanks) :
    (state.next code).1.level = state.breakLevel code ∨
      (state.next code).1.level = state.breakLevel code + 1 ∧
        (state.next code).1.mode = .normal ∧ (state.next code).1.breakPending = true := by
  have shown : Mark.ofCode code ≠ .blank := fun same => visible (Mark.ofCode_eq_blank_iff.mp same)
  rw [next_of_visible normal shown]
  by_cases opener : Mark.ofCode code = .opener
  · refine .inr ⟨?_, ?_, ?_⟩
    · simp only [afterMark, if_pos opener, levelOf_ofCode]
    · simp only [afterMark, opener, modeAfter]
    · simp only [afterMark, opener, true_or, decide_true]
  · refine .inl ?_
    simp only [afterMark, if_neg opener, levelOf_ofCode]

/-- The line break before a symbol is one level deeper at most than those before it, and a symbol
without one stands no deeper than they do. -/
theorem Follows.breakLevel_le (follows : state.Follows deepest) (grounded : 0 ≤ deepest)
    (code : Int) :
    state.breakLevel code ≤ deepest + 1 ∧
      (state.mode = .normal → code ∉ Code.blanks → ¬state.BreakDue code →
        state.breakLevel code ≤ deepest) := by
  have near : state.level ≤ deepest + 1 := by
    rcases follows with low | ⟨-, -, level⟩
    · exact Int.le_add_one low
    · exact Int.le_of_eq level
  unfold breakLevel
  by_cases closer : code ∈ Code.closers
  · have closed : max (state.level - 1) 0 ≤ deepest :=
      Int.max_le.mpr ⟨Int.sub_right_le_of_le_add near, grounded⟩
    rw [if_pos closer]
    exact ⟨Int.le_add_one closed, fun _ _ _ => closed⟩
  · rw [if_neg closer]
    refine ⟨near, fun normal visible undue => ?_⟩
    rcases follows with low | ⟨-, pending, -⟩
    · exact low
    · exact absurd ⟨normal, visible, .inr ⟨closer, pending⟩⟩ undue

/-- One transition tells its line break gradually, and the state after it follows. -/
theorem Follows.next (follows : state.Follows deepest) (grounded : 0 ≤ deepest) (code : Int) :
    ∃ deeper, 0 ≤ deeper ∧ (state.next code).1.Follows deeper ∧
      ∀ rest, Gradual deeper rest → Gradual deepest ((state.next code).2 ++ rest) := by
  obtain ⟨near, low⟩ := follows.breakLevel_le grounded code
  have flat := state.flat_toldSymbol code
  rw [told_next, dueBreak]
  by_cases normal : state.mode = .normal
  · by_cases blank : code ∈ Code.blanks
    · have undue : ¬state.BreakDue code := fun due => due.2.1 blank
      refine ⟨deepest, grounded, ?_, fun rest later => ?_⟩
      · rw [next_of_blank normal (Mark.ofCode_eq_blank_iff.mpr blank)]
        exact follows
      · rw [if_neg undue]
        exact .append_flat flat later
    · have standing : ∀ deeper, state.breakLevel code ≤ deeper →
          (state.next code).1.Follows deeper := by
        intro deeper above
        rcases level_of_visible normal blank with level | ⟨level, mode, pending⟩
        · exact .inl (Int.le_trans (Int.le_of_eq level) above)
        · rcases Int.lt_or_eq_of_le above with below | rfl
          · exact .inl (Int.le_trans (Int.le_of_eq level) (Int.add_one_le_of_lt below))
          · exact .inr ⟨mode, pending, level⟩
      by_cases due : state.BreakDue code
      · refine ⟨max deepest (state.breakLevel code), Int.le_trans grounded (Int.le_max_left ..),
          standing _ (Int.le_max_right ..), fun rest later => ?_⟩
        rw [if_pos due]
        exact .lineBreak near (.append_flat flat later)
      · refine ⟨deepest, grounded, standing _ (low normal blank due), fun rest later => ?_⟩
        rw [if_neg due]
        exact .append_flat flat later
  · have undue : ¬state.BreakDue code := fun due => normal due.1
    have level : (state.next code).1.level ≤ deepest := by
      rw [level_of_copying normal]
      exact follows.resolve_right fun waiting => normal waiting.1
    refine ⟨deepest, grounded, .inl level, fun rest later => ?_⟩
    rw [if_neg undue]
    exact .append_flat flat later

/-- So do all transitions in a row. -/
theorem Follows.gradual_trace (follows : state.Follows deepest) (grounded : 0 ≤ deepest)
    (bytes : Bytes) : Gradual deepest (state.trace bytes).2 := by
  induction bytes generalizing state deepest with
  | nil => exact .nil
  | cons byte rest later =>
      obtain ⟨deeper, above, after, now⟩ := follows.next grounded (byteCode byte)
      rw [trace_cons]
      exact now _ (later after above)

end State

/-! ### Memory for one level after the other -/

namespace Margin

variable {indentation : Indentation} {longest : Nat} {level : Int}

/-- Where there is memory for the indentation of a level, its line break is that of unbounded
memory. -/
theorem breakFault?_of_fits (fits : level.toNat * indentation.unit.length ≤ longest)
    (counted : longest < 0x8000000000000000) :
    breakFault? ⟨indentation, .bounded longest⟩ level =
      breakFault? ⟨indentation, .unbounded⟩ level := by
  have rendered : renderFault? ⟨indentation, .bounded longest⟩ level =
      renderFault? ⟨indentation, .unbounded⟩ level := by
    have short : ¬0x8000000000000000 ≤ level.toNat * indentation.unit.length := by omega
    simp only [renderFault?, Memory.fault?, if_neg short, if_neg (Nat.not_lt.mpr fits)]
  unfold breakFault?
  rw [rendered]

/-- Where there is none, but the length can be counted, that is what is reported of a level in
range. -/
theorem breakFault?_of_not_fits (beyond : longest < level.toNat * indentation.unit.length)
    (counted : level.toNat * indentation.unit.length < 0x8000000000000000)
    (within : LevelInRange level) :
    breakFault? ⟨indentation, .bounded longest⟩ level = some .outOfMemory := by
  have positive : ¬level ≤ 0 := by
    intro grounded
    rw [Int.toNat_of_nonpos grounded, Nat.zero_mul] at beyond
    cases beyond
  have fault : renderFault? ⟨indentation, .bounded longest⟩ level = some .outOfMemory := by
    simp only [renderFault?, if_pos within, if_neg positive, Memory.fault?,
      if_neg (Nat.not_le.mpr counted), if_pos beyond]
  rw [breakFault?, fault]

theorem breakFault?_of_not_within (memory : Memory) (outside : ¬LevelInRange level) :
    breakFault? ⟨indentation, memory⟩ level = some .levelOutOfRange := by
  rw [breakFault?, renderFault?, if_neg outside]

end Margin

/-- A piece that is no line break needs no memory. -/
theorem Piece.fault?_of_flat {piece : Piece} (flat : ∀ level, piece ≠ .lineBreak level)
    (indentation : Indentation) (first second : Memory) :
    piece.fault? ⟨indentation, first⟩ = piece.fault? ⟨indentation, second⟩ := by
  cases piece with
  | lineBreak level => exact absurd rfl (flat level)
  | copied code => rfl
  | echoed code => rfl
  | space => rfl

/-- Gradual pieces have the first fault that they have in unbounded memory, or there is no memory
for one of their line breaks. -/
theorem Gradual.firstFault {indentation : Indentation} {longest : Nat}
    (spare : longest + indentation.unit.length < 0x8000000000000000) {deepest : Int}
    {pieces : List Piece} (gradual : Gradual deepest pieces)
    (fits : deepest.toNat * indentation.unit.length ≤ longest) :
    pieces.findSome? (Piece.fault? ⟨indentation, .bounded longest⟩) =
        pieces.findSome? (Piece.fault? ⟨indentation, .unbounded⟩) ∨
      pieces.findSome? (Piece.fault? ⟨indentation, .bounded longest⟩) =
        some (.lineBreak .outOfMemory) := by
  induction gradual with
  | nil => exact .inl rfl
  | @flat deepest piece rest other _ following =>
      rw [List.findSome?_cons, List.findSome?_cons,
        Piece.fault?_of_flat other indentation (.bounded longest) .unbounded]
      cases piece.fault? ⟨indentation, .unbounded⟩ with
      | some error => exact .inl rfl
      | none => exact following fits
  | @lineBreak deepest level rest near _ following =>
      simp only [List.findSome?_cons, Piece.fault?]
      by_cases room : level.toNat * indentation.unit.length ≤ longest
      · rw [Margin.breakFault?_of_fits room (by omega)]
        cases Margin.breakFault? ⟨indentation, .unbounded⟩ level with
        | some error => exact .inl rfl
        | none =>
            refine following ?_
            rcases Int.le_total deepest level with deeper | shallower
            · rw [Int.max_eq_right deeper]
              exact room
            · rw [Int.max_eq_left shallower]
              exact fits
      · by_cases within : LevelInRange level
        · -- One unit more than what there was memory for can be counted.
          have counted : level.toNat * indentation.unit.length < 0x8000000000000000 := by
            calc level.toNat * indentation.unit.length
                ≤ (deepest.toNat + 1) * indentation.unit.length :=
                  Nat.mul_le_mul_right _ (by omega)
              _ = deepest.toNat * indentation.unit.length + indentation.unit.length :=
                  Nat.succ_mul ..
              _ ≤ longest + indentation.unit.length := Nat.add_le_add_right fits _
              _ < 0x8000000000000000 := spare
          rw [Margin.breakFault?_of_not_fits (Nat.not_le.mp room) counted within]
          exact .inr rfl
        · rw [Margin.breakFault?_of_not_within _ within, Margin.breakFault?_of_not_within _ within]
          exact .inl rfl

/-! ### Runs -/

section Bounded

variable {indentation : Indentation} {longest : Nat}
  (spare : longest + indentation.unit.length < 0x8000000000000000)

include spare

/-- What a byte sequence tells is written as in unbounded memory, or there is no memory for one of
its line breaks. -/
theorem write_bounded (bytes : Bytes) :
    Margin.write ⟨indentation, .bounded longest⟩ (State.initial.trace bytes).2 =
        Margin.write ⟨indentation, .unbounded⟩ (State.initial.trace bytes).2 ∨
      Margin.write ⟨indentation, .bounded longest⟩ (State.initial.trace bytes).2 =
        .error (.lineBreak .outOfMemory) := by
  have follows : State.initial.Follows 0 := .inl (Int.le_refl 0)
  have gradual := follows.gradual_trace (Int.le_refl 0) bytes
  have nothing : (0 : Int).toNat * indentation.unit.length ≤ longest := by
    rw [Int.toNat_zero, Nat.zero_mul]
    exact Nat.zero_le longest
  -- The bytes of a piece do not depend on the memory, so only the faults are to be compared.
  unfold Margin.write
  rcases gradual.firstFault spare nothing with same | wanting
  · rw [same]
    exact .inl rfl
  · rw [wanting]
    exact .inr rfl

/-- On a machine that has memory for one unit less than can be counted, or for still less, a run is
that in unbounded memory, or there is no memory for an indentation. -/
theorem run_bounded (bytes : Bytes) :
    run ⟨indentation, .bounded longest⟩ .initial bytes =
        run ⟨indentation, .unbounded⟩ .initial bytes ∨
      run ⟨indentation, .bounded longest⟩ .initial bytes = .error (.lineBreak .outOfMemory) := by
  unfold run
  simp only
  rcases write_bounded spare bytes with same | wanting
  · rw [same]
    exact .inl rfl
  · rw [wanting]
    exact .inr rfl

/-- The same holds of texts. -/
theorem reindent_bounded (text : Text) :
    reindent ⟨indentation, .bounded longest⟩ text = reindent ⟨indentation, .unbounded⟩ text ∨
      reindent ⟨indentation, .bounded longest⟩ text =
        .error (.step (.lineBreak .outOfMemory)) := by
  unfold reindent throughBytes reindentBytes
  cases Utf8.encode text with
  | error run => exact .inl rfl
  | ok bytes =>
      simp only
      rcases write_bounded spare bytes with same | wanting
      · rw [same]
        exact .inl rfl
      · rw [wanting]
        exact .inr rfl

end Bounded

end Reindent
