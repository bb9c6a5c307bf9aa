import Reindent.Proofs.RawBytes

/-!
Atoms as layout merges them.

Layout drops the whitespace within an atom, so an atom is a longest row of bytes that belong to
atoms, with nothing but whitespace in between, and it has a stretch for each part that whitespace
does not interrupt.  Here this is told by the states that layout goes through, and by no lexeme: a
byte that layout meets outside strings and comments is a part of an atom, or a gap, or else a
boundary, and within strings and comments all bytes are boundaries.

Main statement: the merged atoms are the atoms of the lexemes, stretch by stretch
(`mergedAtoms_eq`).
-/

namespace Reindent

open Lexeme

/-! ### Cutting bytes at the states of layout -/

/-- What a byte is to the atoms around it. -/
inductive Role where
  /-- A part of an atom. -/
  | part (byte : UInt8)
  /-- Whitespace that layout drops. -/
  | gap
  /-- Anything else: punctuation, and all of a string or a comment. -/
  | boundary
deriving DecidableEq

/-- The byte of a part. -/
def Role.byte? : Role → Option UInt8
  | part byte => some byte
  | gap | boundary => none

/-- What a byte is in a state. -/
def State.role (state : State) (byte : UInt8) : Role :=
  if state.mode = .normal then
    match byteMark byte with
    | .ordinary => .part byte
    | .blank => .gap
    | _ => .boundary
  else
    .boundary

/-- What each byte is, from a state on. -/
def State.roles (state : State) : Bytes → List Role
  | [] => []
  | byte :: rest => state.role byte :: (state.next (byteCode byte)).1.roles rest

/-- The stretches of an atom: what gaps leave of it. -/
def stretches (row : List Role) : List Bytes :=
  ((row.splitOnP (· == .gap)).map (List.filterMap Role.byte?)).filter (!·.isEmpty)

/-- What boundaries leave of some bytes, each section with its stretches. -/
def sections (roles : List Role) : List (List Bytes) :=
  (roles.splitOnP (· == .boundary)).map stretches

/-- The atoms of a byte sequence as layout merges them, each with its stretches. -/
def mergedAtoms (bytes : Bytes) : List (List Bytes) :=
  (sections (State.initial.roles bytes)).filter (!·.isEmpty)

/-! ### Stretches -/

@[simp] theorem stretches_nil : stretches [] = [] := rfl

theorem stretches_gap (row : List Role) : stretches (.gap :: row) = stretches row := by
  simp [stretches, List.splitOnP_cons_eq_if_modifyHead]

/-- A row that does not go on with a part. -/
def EndsStretch (roles : List Role) : Prop := ∀ role ∈ roles.head?, role.byte? = none

theorem stretches_part {run : Bytes} (something : run ≠ []) {row : List Role}
    (ends : row = [] ∨ ∃ more, row = .gap :: more) :
    stretches (run.map Role.part ++ row) = run :: stretches row := by
  have parts : ∀ role ∈ run.map Role.part, (role == .gap) = false := by
    intro role member
    obtain ⟨byte, -, rfl⟩ := List.mem_map.mp member
    rfl
  have whole : (run.map Role.part).filterMap Role.byte? = run := by
    rw [List.filterMap_map]
    exact List.filterMap_some
  rcases ends with rfl | ⟨more, rfl⟩
  · simp [stretches, List.splitOnP_eq_singleton parts, whole, something, Role.byte?]
  · rw [stretches_gap]
    simp [stretches, List.splitOnP_append_cons_of_forall_mem parts, whole, something]

/-! ### Sections -/

theorem sections_boundary (roles : List Role) :
    sections (.boundary :: roles) = [] :: sections roles := by
  simp [sections, List.splitOnP_cons_eq_if_modifyHead]

theorem sections_gap (roles : List Role) : sections (.gap :: roles) = sections roles := by
  obtain ⟨first, others, split⟩ := List.exists_cons_of_ne_nil
    (List.splitOnP_ne_nil (· == Role.boundary) roles)
  simp [sections, List.splitOnP_cons_eq_if_modifyHead, split, stretches_gap]

theorem splitOnP_part (run : Bytes) {roles row : List Role} {rows : List (List Role)}
    (split : roles.splitOnP (· == .boundary) = row :: rows) :
    (run.map Role.part ++ roles).splitOnP (· == .boundary) =
      (run.map Role.part ++ row) :: rows := by
  induction run with
  | nil => exact split
  | cons byte run later =>
      rw [List.map_cons, List.cons_append, List.splitOnP_cons_eq_if_modifyHead, later]
      rfl

/-- The section at the front of a row that does not go on with a part. -/
theorem front_of_endsStretch {roles row : List Role} {rows : List (List Role)}
    (ends : EndsStretch roles) (split : roles.splitOnP (· == .boundary) = row :: rows) :
    row = [] ∨ ∃ more, row = .gap :: more := by
  cases roles with
  | nil =>
      cases split
      exact .inl rfl
  | cons role roles =>
      rw [List.splitOnP_cons_eq_if_modifyHead] at split
      cases role with
      | part byte => exact absurd (ends _ rfl) (by simp [Role.byte?])
      | boundary =>
          cases split
          exact .inl rfl
      | gap =>
          obtain ⟨first, others, behind⟩ := List.exists_cons_of_ne_nil
            (List.splitOnP_ne_nil (· == Role.boundary) roles)
          rw [behind] at split
          cases split
          exact .inr ⟨first, rfl⟩

/-- A stretch goes to the section that follows it. -/
theorem sections_part {run : Bytes} (something : run ≠ []) {roles : List Role}
    (ends : EndsStretch roles) :
    sections (run.map Role.part ++ roles) = (sections roles).modifyHead (run :: ·) := by
  obtain ⟨row, rows, split⟩ := List.exists_cons_of_ne_nil
    (List.splitOnP_ne_nil (· == Role.boundary) roles)
  have front := stretches_part something (front_of_endsStretch ends split)
  unfold sections
  rw [splitOnP_part run split, split, List.map_cons, front]
  rfl

/-! ### Roles, step by step -/

namespace State

theorem roles_append (state : State) (front back : Bytes) :
    state.roles (front ++ back) = state.roles front ++ (state.trace front).1.roles back := by
  induction front generalizing state with
  | nil => rfl
  | cons byte rest later =>
      rw [List.cons_append, roles, later, roles, trace_cons]
      rfl

theorem role_of_copying {state : State} (mode : state.mode ≠ .normal) (byte : UInt8) :
    state.role byte = .boundary := if_neg mode

theorem role_of_normal {state : State} (mode : state.mode = .normal) (byte : UInt8) :
    state.role byte =
      match byteMark byte with
      | .ordinary => .part byte
      | .blank => .gap
      | _ => .boundary := if_pos mode

end State

/-- A row of boundaries. -/
def Boundaries (row : List Role) : Prop := ∀ role ∈ row, role = .boundary

theorem Boundaries.cons {row : List Role} (bounds : Boundaries row) :
    Boundaries (.boundary :: row) :=
  List.forall_mem_cons.mpr ⟨rfl, bounds⟩

namespace State

variable (depth : Nat) (before : Mark)

/-- Within a string all bytes are boundaries. -/
theorem roles_body {closing dangling : Prop} {body : Text → Prop}
    (step : BodyStep closing dangling body) {bytes : Bytes} (whole : body (symbols bytes)) :
    Boundaries ((between depth before .string).roles bytes) := by
  have nothing : Boundaries [] := by simp [Boundaries]
  have copying : (between depth before .string).mode ≠ .normal := by simp [between]
  induction length : bytes.length using Nat.strongRecOn generalizing bytes with
  | ind size shorter =>
      cases bytes with
      | nil => exact nothing
      | cons byte rest =>
          rw [List.length_cons] at length
          rw [symbols_cons, step, code_symbolOf] at whole
          rw [roles, role_of_copying copying]
          apply Boundaries.cons
          rcases whole with ⟨-, -, none⟩ | ⟨backslash, ⟨-, none⟩ | ⟨c, later, more, within⟩⟩ |
            ⟨⟨unquoted, unescaped⟩, within⟩
          · rw [List.map_eq_nil_iff.mp none]
            exact nothing
          · rw [List.map_eq_nil_iff.mp none]
            exact nothing
          · -- The backslash takes the next byte with it, whatever that is.
            obtain ⟨escaped, behind, rfl, -, rfl⟩ := List.map_eq_cons_iff.mp more
            rw [List.length_cons] at length
            rw [next_backslash depth before backslash, roles, next_escaped]
            exact (shorter behind.length (by omega) within rfl).cons
          · rw [next_plain depth before unquoted unescaped]
            exact shorter rest.length (by omega) within rfl

/-- So they are within a comment. -/
theorem roles_oneLine {run : Bytes} (line : OneLine (symbols run)) :
    Boundaries ((between depth before .comment).roles run) := by
  induction run with
  | nil => simp [Boundaries, roles]
  | cons byte run later =>
      obtain ⟨inside, line⟩ := List.forall_mem_cons.mp line
      rw [code_symbolOf] at inside
      rw [roles, role_of_copying (by simp [between]), next_commented depth before inside]
      exact (later line).cons

theorem roles_blank {byte : UInt8} (mark : byteMark byte = .blank) (rest : Bytes) :
    (between depth before).roles (byte :: rest) = .gap :: (between depth before).roles rest := by
  rw [roles, role_of_normal rfl, next_of_blank rfl mark, mark]

theorem roles_atom {run : Bytes} (ordinary : ∀ byte ∈ run, byteMark byte = .ordinary)
    (rest : Bytes) :
    ∃ after, (between depth before).roles (run ++ rest) =
      run.map Role.part ++ (between depth after).roles rest := by
  induction run generalizing before with
  | nil => exact ⟨before, rfl⟩
  | cons byte run later =>
      obtain ⟨first, others⟩ := List.forall_mem_cons.mp ordinary
      obtain ⟨after, behind⟩ := later .ordinary others
      have code : Mark.ofCode (byteCode byte) = .ordinary := first
      refine ⟨after, ?_⟩
      rw [List.cons_append, roles, role_of_normal rfl, first, next_of_visible rfl (by simp [code]),
        code, afterMark_ordinary, behind]
      rfl

/-- Bytes that do not go on with an atom do not go on with a part. -/
theorem endsStretch_roles {rest : Bytes} (ends : ∀ byte ∈ rest.head?, byteMark byte ≠ .ordinary) :
    EndsStretch ((between depth before).roles rest) := by
  cases rest with
  | nil => simp [EndsStretch, roles]
  | cons byte rest =>
      have other := ends byte rfl
      intro role member
      rw [roles, role_of_normal rfl] at member
      cases member
      cases mark : byteMark byte with
      | ordinary => exact absurd mark other
      | blank | quote | hash | opener | closer | colon | comma => rfl

theorem roles_punctuation {byte : UInt8} (mark : (byteMark byte).isPunctuation = true)
    (rest : Bytes) :
    (between depth before).roles (byte :: rest) =
      .boundary :: (between (depthAfter ⟨.punctuation, [symbolOf byte]⟩ depth)
        (byteMark byte)).roles rest := by
  have symbol : (symbolOf byte).mark.isPunctuation = true := by rw [mark_symbolOf, mark]
  have after := afterMark_punctuation depth before symbol
  have bound : (between depth before).role byte = .boundary := by
    rw [role_of_normal rfl]
    cases kind : byteMark byte with
    | opener | closer | colon | comma | quote | hash => rfl
    | blank | ordinary =>
        rw [kind] at mark
        cases mark
  have visible : Mark.ofCode (byteCode byte) ≠ .blank := by
    intro blank
    rw [byteMark, blank] at mark
    cases mark
  rw [mark_symbolOf] at after
  rw [roles, bound, next_of_visible rfl visible, ← after]
  rfl

/-- A quote and a number sign are boundaries, and lead into a string and a comment. -/
theorem roles_quote {byte : UInt8} (mark : byteMark byte = .quote) (rest : Bytes) :
    (between depth before).roles (byte :: rest) =
      .boundary :: (between depth .ordinary .string).roles rest := by
  have code : Mark.ofCode (byteCode byte) = .quote := mark
  rw [roles, role_of_normal rfl, mark, next_of_visible rfl (by simp [code]), code, afterMark_quote]

theorem roles_hash {byte : UInt8} (mark : byteMark byte = .hash) (rest : Bytes) :
    (between depth before).roles (byte :: rest) =
      .boundary :: (between depth .ordinary .comment).roles rest := by
  have code : Mark.ofCode (byteCode byte) = .hash := mark
  rw [roles, role_of_normal rfl, mark, next_of_visible rfl (by simp [code]), code, afterMark_hash]

theorem roles_closedString {byte : UInt8} (mark : byteMark byte = .quote) {body : Bytes}
    (closed : ClosedBody (symbols body)) (rest : Bytes) :
    ∃ row, Boundaries row ∧ (between depth before).roles (byte :: (body ++ rest)) =
      .boundary :: row ++ (between depth .ordinary).roles rest := by
  refine ⟨_, roles_body depth .ordinary bodyStep_closed closed, ?_⟩
  rw [roles_quote depth before mark, roles_append, ← traceText_symbols,
    traceText_closedBody _ _ closed]
  rfl

theorem roles_comment {byte : UInt8} (mark : byteMark byte = .hash) {run : Bytes}
    (line : OneLine (symbols run)) (rest : Bytes) :
    ∃ row, Boundaries row ∧ (between depth before).roles (byte :: (run ++ 0x0A :: rest)) =
      .boundary :: row ++ (between depth .ordinary).roles rest := by
  refine ⟨_ ++ [.boundary], List.forall_mem_append.mpr
    ⟨roles_oneLine depth .ordinary line, by simp⟩, ?_⟩
  rw [roles_hash depth before mark, roles_append, ← traceText_symbols,
    traceText_oneLine _ _ line]
  simp only [List.cons_append, List.append_assoc]
  rfl

end State

/-! ### Bundles of atoms -/

/-- The stretches of a bundle, if it is an atom. -/
def Lexeme.Bundle.atom? (bundle : Bundle) : Option (List Bytes) :=
  if bundle.kind = .atom then some (bundle.stretches.map ofSymbols) else none

/-- The stretches of the atom at the front of bundles, if one stands there. -/
def frontAtom : List Bundle → List Bytes
  | [] => []
  | first :: _ => first.atom?.getD []

/-- What is kept behind something that is kept. -/
theorem filter_behind_front {front : List Bytes} {others more : List (List Bytes)}
    (same : (front :: others).filter (!·.isEmpty) = front :: more) :
    others.filter (!·.isEmpty) = more := by
  cases front with
  | nil =>
      rw [List.filter_cons_of_neg (by simp)] at same
      have member : [] ∈ others.filter (!·.isEmpty) := by
        rw [same]
        exact List.mem_cons_self ..
      simp at member
  | cons stretch rest =>
      rw [List.filter_cons_of_pos (by simp)] at same
      exact List.tail_eq_of_cons_eq same

/-- Roles have the atoms of some bundles, and the section at the front is the atom there. -/
structure Matches (roles : List Role) (bundles : List Bundle) : Prop where
  front : (sections roles).head? = some (frontAtom bundles)
  atoms : (sections roles).filter (!·.isEmpty) = bundles.filterMap Bundle.atom?

namespace Matches

variable {roles : List Role} {bundles : List Bundle}

theorem nil : Matches [] [] := ⟨rfl, rfl⟩

theorem gap (matched : Matches roles bundles) : Matches (.gap :: roles) bundles := by
  constructor
  · rw [sections_gap]
    exact matched.front
  · rw [sections_gap]
    exact matched.atoms

/-- Where no atom stands at the front, one boundary more does not matter. -/
theorem boundary (matched : Matches roles bundles) (apart : frontAtom bundles = []) :
    Matches (.boundary :: roles) bundles := by
  constructor
  · rw [sections_boundary, apart]
    rfl
  · rw [sections_boundary, List.filter_cons_of_neg (by simp)]
    exact matched.atoms

/-- Any other lexeme is a row of boundaries. -/
theorem other {lexeme : Lexeme} (matched : Matches roles bundles) (apart : lexeme.kind ≠ .atom)
    {row : List Role} (bounds : Boundaries row) :
    Matches (.boundary :: row ++ roles) (consBundle lexeme bundles) := by
  have no_atom : Bundle.atom? ⟨lexeme.kind, [lexeme.text]⟩ = none := if_neg apart
  rw [consBundle_apart fun atom => absurd atom apart]
  induction row with
  | nil =>
      constructor
      · rw [List.singleton_append, sections_boundary, frontAtom, no_atom]
        rfl
      · rw [List.singleton_append, sections_boundary, List.filter_cons_of_neg (by simp),
          List.filterMap_cons_none no_atom]
        exact matched.atoms
  | cons role row later =>
      obtain ⟨rfl, others⟩ := List.forall_mem_cons.mp bounds
      apply (later others).boundary
      rw [frontAtom, no_atom]
      rfl

section Stretch

variable {run : Bytes} (something : run ≠ []) (ends : EndsStretch roles)

include something ends

/-- A stretch joins an atom at the front. -/
theorem stretch_joins {first : Bundle} {rest : List Bundle} (atom : first.kind = .atom)
    (matched : Matches roles (first :: rest)) :
    Matches (run.map Role.part ++ roles)
      (⟨.atom, symbols run :: first.stretches⟩ :: rest) := by
  obtain ⟨front, atoms⟩ := matched
  obtain ⟨others, split⟩ := List.head?_eq_some_iff.mp front
  have before : first.atom? = some (first.stretches.map ofSymbols) := if_pos atom
  have now : Bundle.atom? ⟨.atom, symbols run :: first.stretches⟩ =
      some (run :: first.stretches.map ofSymbols) := by simp [Bundle.atom?]
  rw [split, frontAtom, before, Option.getD_some, List.filterMap_cons_some before] at atoms
  have joined : sections (run.map Role.part ++ roles) =
      (run :: first.stretches.map ofSymbols) :: others := by
    rw [sections_part something ends, split, frontAtom, before]
    rfl
  constructor
  · rw [joined, frontAtom, now]
    rfl
  · rw [joined, List.filter_cons_of_pos (by simp), List.filterMap_cons_some now,
      filter_behind_front atoms]

/-- Where none stands there, it is an atom of its own. -/
theorem stretch_alone (matched : Matches roles bundles)
    (apart : ∀ first ∈ bundles.head?, first.kind ≠ .atom) :
    Matches (run.map Role.part ++ roles) (⟨.atom, [symbols run]⟩ :: bundles) := by
  obtain ⟨front, atoms⟩ := matched
  obtain ⟨others, split⟩ := List.head?_eq_some_iff.mp front
  have nothing : frontAtom bundles = [] := by
    cases bundles with
    | nil => rfl
    | cons first rest =>
        rw [frontAtom, Bundle.atom?, if_neg (apart first rfl)]
        rfl
  have now : Bundle.atom? ⟨.atom, [symbols run]⟩ = some [run] := by simp [Bundle.atom?]
  rw [split, nothing, List.filter_cons_of_neg (by simp)] at atoms
  have joined : sections (run.map Role.part ++ roles) = [run] :: others := by
    rw [sections_part something ends, split, nothing]
    rfl
  constructor
  · rw [joined, frontAtom, now]
    rfl
  · rw [joined, List.filter_cons_of_pos (by simp), List.filterMap_cons_some now, atoms]

/-- A stretch of an atom is put in front like its lexeme. -/
theorem stretch (matched : Matches roles bundles) :
    Matches (run.map Role.part ++ roles) (consBundle ⟨.atom, symbols run⟩ bundles) := by
  by_cases joins : ∃ first ∈ bundles.head?, first.kind = .atom
  · obtain ⟨first, member, atom⟩ := joins
    obtain ⟨rest, rfl⟩ := List.head?_eq_some_iff.mp member
    rw [consBundle_atom atom]
    exact stretch_joins something ends atom matched
  · have apart : ∀ first ∈ bundles.head?, first.kind ≠ .atom :=
      fun first member atom => joins ⟨first, member, atom⟩
    rw [consBundle_apart fun _ => apart]
    exact stretch_alone something ends matched apart

end Stretch

end Matches

/-- Roles have the atoms of the lexemes that are cut, stretch by stretch. -/
theorem matches_between (depth : Nat) (before : Mark) (bytes : Bytes) :
    Matches ((State.between depth before).roles bytes) (bundles (cut (symbols bytes))) := by
  have nothing : Boundaries [] := by simp [Boundaries]
  induction bytes using Bytes.tokenInduction generalizing depth before with
  | nil =>
      rw [symbols_nil, cut_nil]
      exact .nil
  | blank byte rest mark later =>
      have symbol : (symbolOf byte).mark = .blank := by rw [mark_symbolOf, mark]
      rw [State.roles_blank depth before mark, symbols_cons, cut_blank symbol]
      exact (later depth before).gap
  | atom run rest something ordinary ends later =>
      obtain ⟨after, behind⟩ := State.roles_atom depth before ordinary rest
      rw [behind, cut_symbols_atom something ordinary ends]
      exact .stretch something (State.endsStretch_roles depth after ends) (later depth after)
  | punctuation byte rest mark later =>
      have symbol : (symbolOf byte).mark.isPunctuation = true := by rw [mark_symbolOf, mark]
      rw [State.roles_punctuation depth before mark, symbols_cons, cut_punctuation symbol]
      exact (later _ _).other (by simp) nothing
  | closedString byte body rest mark closed later =>
      have symbol : (symbolOf byte).mark = .quote := by rw [mark_symbolOf, mark]
      obtain ⟨row, bounds, behind⟩ := State.roles_closedString depth before mark closed rest
      rw [behind, symbols_cons, symbols_append, cut_closedString symbol closed]
      exact (later _ _).other (by simp) bounds
  | openString byte body mark unclosed =>
      have symbol : (symbolOf byte).mark = .quote := by rw [mark_symbolOf, mark]
      have bounds := State.roles_body depth .ordinary bodyStep_open unclosed
      rw [State.roles_quote depth before mark, symbols_cons, cut_openString symbol unclosed]
      rw [← List.append_nil (Role.boundary :: _)]
      exact Matches.nil.other (by simp) bounds
  | comment byte run rest mark line later =>
      have symbol : (symbolOf byte).mark = .hash := by rw [mark_symbolOf, mark]
      have newline : symbolOf 0x0A = .ofChar '\n' := by decide
      obtain ⟨row, bounds, behind⟩ := State.roles_comment depth before mark line rest
      rw [behind, symbols_cons, symbols_append, symbols_cons, newline, cut_comment symbol line]
      exact (later _ _).other (by simp) bounds
  | lastComment byte run mark line =>
      have symbol : (symbolOf byte).mark = .hash := by rw [mark_symbolOf, mark]
      have bounds := State.roles_oneLine depth .ordinary line
      rw [State.roles_hash depth before mark, symbols_cons, cut_lastComment symbol line]
      rw [← List.append_nil (Role.boundary :: _)]
      exact Matches.nil.other (by simp) bounds

/-- The merged atoms are the atoms of the lexemes, stretch by stretch. -/
theorem mergedAtoms_eq (bytes : Bytes) :
    mergedAtoms bytes = (bundles (cut (symbols bytes))).filterMap Bundle.atom? := by
  rw [mergedAtoms, State.initial_eq_between]
  exact (matches_between 0 _ bytes).atoms

/-- One atom in two stretches, with a string behind it. -/
example : mergedAtoms [0x61, 0x20, 0x62, 0x22, 0x63, 0x20, 0x64, 0x22] = [[[0x61], [0x62]]] := by
  decide

end Reindent
