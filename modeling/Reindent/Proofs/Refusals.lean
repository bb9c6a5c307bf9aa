import Reindent.Proofs.MergedAtoms
import Reindent.Proofs.Modes

/-!
When a verification refuses its input.

A verification decodes source and result, each as a whole, and compares their lexemes.  Layout
writes every atom in one stretch, and every other lexeme as it was.  So the lexemes differ exactly
where the stretches of an atom are decoded otherwise once they are joined, that is, where whitespace
tears a sequence apart.

Main statement: which inputs are refused, and what is said of them (`refused_iff_torn`).
-/

namespace Reindent

open Lexeme Utf8

/-- Whitespace tears an atom if its stretches decode otherwise once they are joined. -/
def Torn (atom : List Bytes) : Prop := decodeEscaped atom.flatten ≠ atom.flatMap decodeEscaped

instance : DecidablePred Torn := fun _ => inferInstanceAs (Decidable (_ ≠ _))

/-! ### First differences -/

namespace Difference

/-- Lexemes in front that agree are passed over. -/
theorem firstChange?_append (index : Nat) (same before after : List Lexeme) :
    firstChange? index (same ++ before) (same ++ after) =
      firstChange? (index + same.length) before after := by
  induction same generalizing index with
  | nil => rfl
  | cons first rest later =>
      rw [List.cons_append, List.cons_append, firstChange?, if_pos rfl, later, List.length_cons,
        Nat.add_assoc, Nat.add_comm 1]

/-- The first lexemes that differ are reported. -/
theorem find?_eq_changed {first second : Lexeme} (differ : first ≠ second)
    (same before after : List Lexeme) :
    find? (same ++ first :: before) (same ++ second :: after) =
      some (.changed same.length first second) := by
  rw [find?, firstChange?_append, firstChange?, if_neg differ, Nat.zero_add]

end Difference

/-! ### Decoded bundles -/

/-- The lexeme of a bundle whose stretches are decoded one by one, as they stand in the source. -/
def Lexeme.Bundle.decodedApart (bundle : Bundle) : Lexeme :=
  ⟨bundle.kind, bundle.stretches.flatMap decoded⟩

/-- The lexeme of a bundle whose stretches are joined and then decoded, as layout writes them. -/
def Lexeme.Bundle.decodedJoined (bundle : Bundle) : Lexeme :=
  ⟨bundle.kind, decoded bundle.stretches.flatten⟩

/-- The lexemes of a source. -/
theorem ofText_source (bytes : Bytes) :
    ofText (decodeEscaped bytes) =
      (bundles (cut (symbols bytes))).map Bundle.decodedApart := by
  rw [ofText_eq_glue, cut_decodeEscaped, glue_eq, bundles_map, List.map_map]
  rfl

/-- The lexemes of what is laid out for it. -/
theorem ofText_written {unit : Text} (blank : unit.Blank) {bytes written : Bytes}
    (laid_out : symbols written = layout unit (symbols bytes)) :
    ofText (decodeEscaped written) =
      (bundles (cut (symbols bytes))).map Bundle.decodedJoined := by
  have apart : Apart (ofText (symbols bytes)) := (wellFormed_ofText _).apart
  rw [ofText_eq_glue, cut_decodeEscaped, laid_out, cut_layout blank,
    glue_of_apart (apart.mapText decoded), ofText_eq_glue, glue_eq, List.map_map]
  rfl

namespace Lexeme.Bundle

theorem atom?_eq_some {bundle : Bundle} {atom : List Bytes} (found : bundle.atom? = some atom) :
    bundle.decodedApart = ⟨.atom, atom.flatMap decodeEscaped⟩ ∧
      bundle.decodedJoined = ⟨.atom, decodeEscaped atom.flatten⟩ := by
  unfold atom? at found
  split at found
  · rename_i kind
    cases found
    rw [decodedApart, decodedJoined, kind, decoded, ofSymbols, List.map_flatten, List.flatMap_map]
    exact ⟨rfl, rfl⟩
  · cases found

theorem kind_of_other {bundle : Bundle} (other : bundle.atom? = none) : bundle.kind ≠ .atom := by
  intro atom
  rw [atom?, if_pos atom] at other
  cases other

/-- A lexeme that is no atom is written as it was. -/
theorem decodedApart_of_other {lexemes : List Lexeme} {bundle : Bundle}
    (member : bundle ∈ bundles lexemes) (other : bundle.atom? = none) :
    bundle.decodedApart = bundle.decodedJoined := by
  obtain ⟨text, alone⟩ := single_of_mem_bundles member (kind_of_other other)
  rw [decodedApart, decodedJoined, alone, List.flatMap_singleton, List.flatten_singleton]

/-- An atom is written as it was unless it is torn. -/
theorem decodedApart_of_whole {lexemes : List Lexeme} {bundle : Bundle}
    (member : bundle ∈ bundles lexemes) (whole : ∀ atom ∈ bundle.atom?, ¬Torn atom) :
    bundle.decodedApart = bundle.decodedJoined := by
  cases found : bundle.atom? with
  | none => exact decodedApart_of_other member found
  | some atom =>
      obtain ⟨before, after⟩ := atom?_eq_some found
      rw [before, after, Classical.not_not.mp (whole atom found)]

/-- The atoms among the lexemes of a source. -/
theorem filter_decodedApart (rows : List Bundle) :
    (rows.map decodedApart).filter (·.kind = .atom) =
      (rows.filterMap atom?).map fun atom => ⟨.atom, atom.flatMap decodeEscaped⟩ := by
  induction rows with
  | nil => rfl
  | cons bundle rest later =>
      cases found : bundle.atom? with
      | none =>
          have kind := kind_of_other found
          rw [List.map_cons, List.filter_cons_of_neg (by simp [decodedApart, kind]), later,
            List.filterMap_cons_none found]
      | some atom =>
          rw [List.map_cons, (atom?_eq_some found).1, List.filter_cons_of_pos (by simp), later,
            List.filterMap_cons_some found, List.map_cons]

end Lexeme.Bundle

/-! ### Sources and what is laid out for them -/

section Written

variable {unit : Text} (blank : unit.Blank) {bytes written : Bytes}
  (laid_out : symbols written = layout unit (symbols bytes))

include blank laid_out

/-- Where no atom is torn, the content is kept. -/
theorem difference_of_whole (whole : ∀ atom ∈ mergedAtoms bytes, ¬Torn atom) :
    (Comparison.ofTexts (decodeEscaped bytes) (decodeEscaped written)).difference = none := by
  rw [Comparison.difference_eq_none_iff, ofText_source, ofText_written blank laid_out]
  rw [mergedAtoms_eq] at whole
  apply List.map_congr_left
  intro bundle member
  apply Bundle.decodedApart_of_whole member
  intro atom found
  exact whole atom (List.mem_filterMap.mpr ⟨bundle, member, found⟩)

/-- Otherwise the first torn atom is the first difference. -/
theorem difference_of_torn {front back : List (List Bytes)} {atom : List Bytes}
    (found : mergedAtoms bytes = front ++ atom :: back) (whole : ∀ other ∈ front, ¬Torn other)
    (torn : Torn atom) :
    ∃ index, (ofText (decodeEscaped bytes))[index]? = some ⟨.atom, atom.flatMap decodeEscaped⟩ ∧
      ((ofText (decodeEscaped bytes)).take index).filter (·.kind = .atom) =
        front.map (fun other => ⟨.atom, other.flatMap decodeEscaped⟩) ∧
      (Comparison.ofTexts (decodeEscaped bytes) (decodeEscaped written)).difference =
        some (.changed index ⟨.atom, atom.flatMap decodeEscaped⟩
          ⟨.atom, decodeEscaped atom.flatten⟩) := by
  rw [mergedAtoms_eq, List.filterMap_eq_append_iff] at found
  obtain ⟨early, late, split, rfl, others⟩ := found
  obtain ⟨passed, bundle, behind, rfl, nothing, here, -⟩ := List.filterMap_eq_cons_iff.mp others
  rw [← List.append_assoc] at split
  obtain ⟨before, after⟩ := Bundle.atom?_eq_some here
  -- All that stands before the torn atom is written as it was.
  have same : (early ++ passed).map Bundle.decodedApart =
      (early ++ passed).map Bundle.decodedJoined := by
    apply List.map_congr_left
    intro other member
    have within : other ∈ bundles (cut (symbols bytes)) := by
      rw [split]
      exact List.mem_append_left _ member
    apply Bundle.decodedApart_of_whole within
    intro atoms listed
    rcases List.mem_append.mp member with inside | inside
    · exact whole atoms (List.mem_filterMap.mpr ⟨other, inside, listed⟩)
    · rw [nothing other inside] at listed
      cases listed
  have source : ofText (decodeEscaped bytes) =
      (early ++ passed).map Bundle.decodedApart ++
        ⟨.atom, atom.flatMap decodeEscaped⟩ :: behind.map Bundle.decodedApart := by
    rw [ofText_source, split, List.map_append, List.map_cons, before]
  have result : ofText (decodeEscaped written) =
      (early ++ passed).map Bundle.decodedApart ++
        ⟨.atom, decodeEscaped atom.flatten⟩ :: behind.map Bundle.decodedJoined := by
    rw [ofText_written blank laid_out, split, List.map_append, List.map_cons, after, same]
  have differ : (⟨.atom, atom.flatMap decodeEscaped⟩ : Lexeme) ≠
      ⟨.atom, decodeEscaped atom.flatten⟩ := by
    intro equal
    exact torn (congrArg Lexeme.text equal).symm
  refine ⟨((early ++ passed).map Bundle.decodedApart).length, ?_, ?_, ?_⟩
  · rw [source, List.getElem?_append_right (Nat.le_refl _), Nat.sub_self]
    rfl
  · rw [source, List.take_left, Bundle.filter_decodedApart, List.filterMap_append,
      List.filterMap_eq_nil_iff.mpr nothing, List.append_nil]
  · unfold Comparison.ofTexts
    rw [source, result]
    exact Difference.find?_eq_changed differ _ _ _

end Written

/-! ### Atoms that are not torn -/

/-- Stretches that are texts decode the same once they are joined. -/
theorem not_torn_of_texts {atom : List Bytes}
    (texts : ∀ stretch ∈ atom, (decode? stretch).isSome = true) : ¬Torn atom := by
  rw [Torn, Classical.not_not]
  induction atom with
  | nil => exact decodeEscaped_nil
  | cons stretch rest later =>
      obtain ⟨first, others⟩ := List.forall_mem_cons.mp texts
      rw [List.flatten_cons, decodeEscaped_append_of_text first, later others, List.flatMap_cons]

/-- The stretches of the atoms of a text are texts. -/
theorem texts_of_mergedAtoms {bytes : Bytes} (text : (decode? bytes).isSome = true)
    {atom : List Bytes} (member : atom ∈ mergedAtoms bytes) {stretch : Bytes}
    (within : stretch ∈ atom) : (decode? stretch).isSome = true := by
  rw [mergedAtoms_eq] at member
  obtain ⟨bundle, bundled, found⟩ := List.mem_filterMap.mp member
  unfold Bundle.atom? at found
  split at found
  · cases found
    obtain ⟨row, stands, rfl⟩ := List.mem_map.mp within
    have piece : Lexeme.mapText decoded ⟨bundle.kind, row⟩ ∈ cut (decodeEscaped bytes) := by
      rw [cut_decodeEscaped]
      exact List.mem_map_of_mem (mem_of_mem_bundles bundled stands)
    rw [isSome_decode?_iff_encodable] at text ⊢
    intro c inside
    exact text c (mem_of_mem_cut piece inside)
  · cases found

/-- An atom that is torn has a first one before it. -/
theorem first_torn {atoms : List (List Bytes)} (some_torn : ∃ atom ∈ atoms, Torn atom) :
    ∃ front atom back, atoms = front ++ atom :: back ∧ (∀ other ∈ front, ¬Torn other) ∧
      Torn atom := by
  obtain ⟨atom, found⟩ : ∃ atom, atoms.find? (fun atom => decide (Torn atom)) = some atom := by
    rw [← Option.isSome_iff_exists, List.find?_isSome]
    simpa using some_torn
  obtain ⟨torn, front, back, split, whole⟩ := List.find?_eq_some_iff_append.mp found
  exact ⟨front, atom, back, split, by simpa using whole, by simpa using torn⟩

/-! ### Verifications -/

/-- With memory for everything, all line breaks of a blank unit can be written. -/
theorem renders_of_unbounded {indentation : Indentation} (blank : indentation.isBlank = true)
    {bytes : Bytes} (countable : bytes.length < 0x8000000000000000) :
    Margin.Renders ⟨indentation, .unbounded⟩ .initial bytes := by
  intro level told
  rw [← State.traceText_symbols] at told
  have within : LevelInRange level :=
    levelInRange_traceText (by simpa [symbols] using countable) told
  have encodable := (Indentation.isBlank_iff.mp blank).encodable
  cases fault : Margin.breakFault? ⟨indentation, .unbounded⟩ level with
  | none => rfl
  | some error =>
      exact absurd rfl (Margin.isWantOfMemory_of_breakFault? encodable within fault).1

/-- What a transfer with a blank unit has written, as symbols, is laid out by the rules. -/
theorem symbols_of_returned {margin : Margin} (blank : margin.indentation.isBlank = true)
    {bytes written : Bytes} (returned : (transfer margin {} [some bytes]).result = .ok written) :
    symbols written = layout margin.indentation.unit (symbols bytes) := by
  obtain ⟨final, outcome⟩ := transfer_eq_ok_iff.mp returned
  rw [(run_eq_ok_iff.mp outcome).2.2, symbols_written blank]

/-- When a verification refuses, for every input and every blank unit.  It does so exactly if some
atom is torn.  Then it changes nothing and names the first torn atom: its place among the lexemes of
the input, and its text decoded stretch by stretch and as a whole.  Otherwise it delivers what is
laid out, if its output opens.  So it never refuses a text, nor any bytes whose atoms are made of
texts, whatever strings and comments hold.  In unbounded memory, something is laid out for every
input. -/
theorem refused_iff_torn {names : Escape.Names} {memory : Memory} {arguments : List Text}
    {settings : Settings} {indentation : Indentation} {standardInput bytes : Bytes}
    {workspace : Workspace} {input : Endpoint}
    (starts : Starts names arguments workspace settings indentation input)
    (unchecked : settings.check = false) (verified : settings.verify = true)
    (read : input.content workspace standardInput = bytes) :
    (memory = .unbounded → bytes.length < 0x8000000000000000 →
      ∃ formatted, (transfer ⟨indentation, memory⟩ {} [some bytes]).result = .ok formatted) ∧
    ∀ formatted, (transfer ⟨indentation, memory⟩ {} [some bytes]).result = .ok formatted →
      ((runProgram names memory arguments standardInput workspace).ending = .exit 2 ↔
        ∃ atom ∈ mergedAtoms bytes, Torn atom) ∧
      (∀ front atom back, mergedAtoms bytes = front ++ atom :: back →
        (∀ other ∈ front, ¬Torn other) → Torn atom →
        ∃ index,
          (ofText (decodeEscaped bytes))[index]? = some ⟨.atom, atom.flatMap decodeEscaped⟩ ∧
          ((ofText (decodeEscaped bytes)).take index).filter (·.kind = .atom) =
            front.map (fun other => ⟨.atom, other.flatMap decodeEscaped⟩) ∧
          (runProgram names memory arguments standardInput workspace).ChangesNothing workspace ∧
          (runProgram names memory arguments standardInput workspace).Says settings.verbose
            (namedLine (settings.input ++ Text.ofString ": " ++
              (Difference.changed index ⟨.atom, atom.flatMap decodeEscaped⟩
                ⟨.atom, decodeEscaped atom.flatten⟩).message))) ∧
      ((∀ atom ∈ mergedAtoms bytes, ¬Torn atom) →
        ∀ output emptied, openOutput workspace settings.output = .ok (output, emptied) →
          (runProgram names memory arguments standardInput workspace).ending = .exit 0 ∧
          (runProgram names memory arguments standardInput workspace).Delivers workspace output
            formatted) ∧
      ((decode? bytes).isSome = true →
        (runProgram names memory arguments standardInput workspace).ending ≠ .exit 2) ∧
      ((∀ atom ∈ mergedAtoms bytes, ∀ stretch ∈ atom, (decode? stretch).isSome = true) →
        (runProgram names memory arguments standardInput workspace).ending ≠ .exit 2) := by
  subst read
  have blank := starts.admitted verified
  constructor
  · rintro rfl countable
    have renders := renders_of_unbounded blank countable
    exact ⟨_, transfer_eq_ok_iff.mpr ⟨_, run_of_renders renders⟩⟩
  intro formatted returned
  have laid_out := symbols_of_returned blank returned
  have unit := Indentation.isBlank_iff.mp blank
  have refused : (runProgram names memory arguments standardInput workspace).ending = .exit 2 ↔
      ∃ atom ∈ mergedAtoms (input.content workspace standardInput), Torn atom := by
    rw [starts.exit_two_iff returned unchecked verified]
    constructor
    · intro differs
      by_contra none_torn
      refine differs (difference_of_whole unit laid_out fun atom member torn => ?_)
      exact none_torn ⟨atom, member, torn⟩
    · intro some_torn
      obtain ⟨front, atom, back, split, whole, torn⟩ := first_torn some_torn
      obtain ⟨index, -, -, found⟩ := difference_of_torn unit laid_out split whole torn
      rw [found]
      exact Option.some_ne_none _
  have accepted : (∀ atom ∈ mergedAtoms (input.content workspace standardInput),
      ∀ stretch ∈ atom, (decode? stretch).isSome = true) →
      (runProgram names memory arguments standardInput workspace).ending ≠ .exit 2 := by
    intro texts exit
    obtain ⟨atom, member, torn⟩ := refused.mp exit
    exact not_torn_of_texts (texts atom member) torn
  refine ⟨refused, ?_, ?_, ?_, accepted⟩
  · intro front atom back split whole torn
    obtain ⟨index, here, before, found⟩ := difference_of_torn unit laid_out split whole torn
    obtain ⟨-, unchanged, said⟩ := starts.refuses returned unchecked verified found
    exact ⟨index, here, before, unchanged, said⟩
  · intro whole output emptied opened
    exact starts.verifies returned unchecked verified opened
      (difference_of_whole unit laid_out whole)
  · intro text
    exact accepted fun atom member stretch within => texts_of_mergedAtoms text member within

/-- A string that holds a stray byte, an atom that whitespace interrupts, and one that it tears. -/
def tornBytes : Bytes := [0x22, 0xFF, 0x22, 0x61, 0x20, 0x62, 0x2C, 0xC3, 0x20, 0xA9]

/-- The torn atom is named, by its place behind the string, the other atom and the comma. -/
theorem refused_iff_torn_behind_whole_atom :
    Starts .none ["--verify", "-t", "a"] { entries := [([[0x61]], .file tornBytes)] }
        { input := "a", tabs := true, verify := true } (.custom [.ofChar '\t']) (.file [[0x61]]) ∧
      (transfer ⟨.custom [.ofChar '\t'], .ordinary⟩ {} [some tornBytes]).result =
        .ok [0x22, 0xFF, 0x22, 0x61, 0x62, 0x2C, 0x0A, 0xC3, 0xA9] ∧
      mergedAtoms tornBytes = [[[0x61], [0x62]], [[0xC3], [0xA9]]] ∧
      ¬Torn [[0x61], [0x62]] ∧ Torn [[0xC3], [0xA9]] ∧
      (runProgram .none .ordinary ["--verify", "-t", "a"] []
        { entries := [([[0x61]], .file tornBytes)] }).ending = .exit 2 ∧
      ∃ index, (ofText (decodeEscaped tornBytes))[index]? =
          some ⟨.atom, [.ofNat 0xDCC3, .ofNat 0xDCA9]⟩ ∧
        (runProgram .none .ordinary ["--verify", "-t", "a"] []
          { entries := [([[0x61]], .file tornBytes)] }).Says false
          (namedLine ("a" ++ Text.ofString ": " ++
            (Difference.changed index ⟨.atom, [.ofNat 0xDCC3, .ofNat 0xDCA9]⟩
              ⟨.atom, [.ofChar 'é']⟩).message)) := by
  have starts : Starts .none ["--verify", "-t", "a"] { entries := [([[0x61]], .file tornBytes)] }
      { input := "a", tabs := true, verify := true } (.custom [.ofChar '\t']) (.file [[0x61]]) := by
    refine ⟨?_, rfl, .tab rfl rfl, fun _ => ?_, ?_⟩ <;> decide +kernel
  have returned : (transfer ⟨.custom [.ofChar '\t'], .ordinary⟩ {} [some tornBytes]).result =
      .ok [0x22, 0xFF, 0x22, 0x61, 0x62, 0x2C, 0x0A, 0xC3, 0xA9] := by
    rw [transfer_result]
    rfl
  have atoms : mergedAtoms tornBytes = [[[0x61], [0x62]], [[0xC3], [0xA9]]] := by decide +kernel
  have whole : ¬Torn [[0x61], [0x62]] := by decide +kernel
  have torn : Torn [[0xC3], [0xA9]] := by decide +kernel
  have read : (Endpoint.file [[0x61]]).content { entries := [([[0x61]], .file tornBytes)] } [] =
      tornBytes := rfl
  have before : [[0xC3], [0xA9]].flatMap decodeEscaped = [.ofNat 0xDCC3, .ofNat 0xDCA9] := by
    decide +kernel
  have after : decodeEscaped [[0xC3], [0xA9]].flatten = [.ofChar 'é'] := by decide +kernel
  obtain ⟨refused, named, -⟩ := (refused_iff_torn starts rfl rfl read).2 _ returned
  obtain ⟨index, here, -, -, said⟩ :=
    named [[[0x61], [0x62]]] [[0xC3], [0xA9]] [] atoms (by simpa using whole) torn
  rw [before] at here said
  rw [after] at said
  refine ⟨starts, returned, atoms, whole, torn, refused.mpr ⟨_, ?_, torn⟩, index, here, said⟩
  rw [atoms]
  simp

end Reindent
