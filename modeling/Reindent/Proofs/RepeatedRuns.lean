import Reindent.Proofs.FixedPoint
import Reindent.Proofs.Modes

/-!
Runs in a row over the same files.

A file is formatted into another one, and the other one is checked and verified in place.  Once the
file has been formatted, the workspace is settled: the output holds what is laid out for the input,
this is laid out as it is, and writing it once more changes nothing.  Every run of any of these
kinds starts from that and leaves it so, and by induction any number of them does.

Main statement: formatted files stay formatted (`formatted_files_stay`).
-/

namespace Reindent

/-! ### Kinds of runs -/

/-- One run of the program: its command line, and what its standard input holds. -/
structure Invocation where
  arguments : List Text
  standardInput : Bytes := []

namespace Invocation

/-- What a run does to a workspace. -/
def run (invocation : Invocation) (names : Escape.Names) (memory : Memory)
    (workspace : Workspace) : Outcome :=
  runProgram names memory invocation.arguments invocation.standardInput workspace

/-- The outcomes of runs in a row, each of which starts with what the one before has left. -/
def outcomes (names : Escape.Names) (memory : Memory) (workspace : Workspace) :
    List Invocation → List Outcome
  | [] => []
  | first :: rest =>
      first.run names memory workspace ::
        outcomes names memory (first.run names memory workspace).workspace rest

/-- A run asks for settings that choose an indentation and satisfy a condition. -/
def AsksFor (invocation : Invocation) (names : Escape.Names) (indentation : Indentation)
    (condition : Settings → Prop) : Prop :=
  ∃ settings, Settings.ofArguments invocation.arguments = .ok settings ∧
    settings.version = false ∧ settings.Chooses names indentation ∧ condition settings

theorem AsksFor.weaken {invocation : Invocation} {names : Escape.Names} {indentation : Indentation}
    {condition weaker : Settings → Prop} (asks : invocation.AsksFor names indentation condition)
    (implied : ∀ settings, condition settings → weaker settings) :
    invocation.AsksFor names indentation weaker := by
  obtain ⟨settings, asked, proceeds, chosen, holds⟩ := asks
  exact ⟨settings, asked, proceeds, chosen, implied settings holds⟩

end Invocation

/-- Format one file into another. -/
structure Settings.Formats (file out : Text) (settings : Settings) : Prop where
  input : settings.input = file
  output : settings.output = .given out
  unchecked : settings.check = false
  unverified : settings.verify = false

/-- Check a file. -/
structure Settings.Checks (out : Text) (settings : Settings) : Prop where
  input : settings.input = out
  checked : settings.check = true

/-- Verify a file in place. -/
structure Settings.Verifies (out : Text) (settings : Settings) : Prop where
  input : settings.input = out
  output : settings.output = .given out
  unchecked : settings.check = false
  verified : settings.verify = true

/-- Format a file into another one, or check or verify the other one. -/
inductive Settings.Keeps (file out : Text) (settings : Settings) : Prop where
  | formats (asked : settings.Formats file out)
  | checks (asked : settings.Checks out)
  | verifies (asked : settings.Verifies out)

/-! ### Layout that is settled -/

/-- What a transfer with a blank unit has written is written as it is. -/
theorem transfer_written {margin : Margin} (blank : margin.indentation.isBlank = true)
    {bytes written : Bytes} (returned : (transfer margin {} [some bytes]).result = .ok written) :
    (transfer margin {} [some written]).result = .ok written := by
  obtain ⟨final, outcome⟩ := transfer_eq_ok_iff.mp returned
  refine transfer_eq_ok_iff.mpr ⟨final, ?_⟩
  rw [run_again blank outcome, outcome]

theorem difference_self (bytes : Bytes) :
    (Comparison.ofTexts (Utf8.decodeEscaped bytes) (Utf8.decodeEscaped bytes)).difference =
      none :=
  Comparison.difference_eq_none_iff.mpr rfl

/-- A workspace in which one file holds the layout of another. -/
structure Settled (margin : Margin) (file out : Text) (source target : Path) (formatted : Bytes)
    (workspace : Workspace) : Prop where
  readable : openInput workspace file = .ok (.file source)
  reread : openInput workspace out = .ok (.file target)
  writable : openEndpoint workspace.openForWriting out = .ok (.file target)
  apart : source ≠ target
  content : workspace.content target = formatted
  rewritten : workspace.write target (.file formatted) = workspace
  returned : (transfer margin {} [some (workspace.content source)]).result = .ok formatted

section Settled

variable {names : Escape.Names} {memory : Memory} {indentation : Indentation}
  {workspace emptied : Workspace} {file out : Text} {source target : Path} {formatted : Bytes}

/-- A workspace is settled once the layout of one file is written to another. -/
theorem settled_written (readable : openInput workspace file = .ok (.file source))
    (writable : openEndpoint workspace.openForWriting out = .ok (.file target))
    (apart : source ≠ target)
    (returned : (transfer ⟨indentation, memory⟩ {}
      [some (workspace.content source)]).result = .ok formatted) :
    Settled ⟨indentation, memory⟩ file out source target formatted
      (workspace.write target (.file formatted)) where
  readable := openInput_write (free_of_openForWriting writable) formatted readable
  reread := openInput_written writable formatted
  writable := openOutput_written writable formatted
  apart := apart
  content := Workspace.content_write_self (free_of_openForWriting writable).ne_nil formatted
  rewritten := Workspace.write_write workspace target _ _
  returned := by
    rw [Workspace.content_write_of_ne apart]
    exact returned

namespace Settled

variable (settled : Settled ⟨indentation, memory⟩ file out source target formatted workspace)

include settled

theorem opened : openOutput workspace (.given out) =
    .ok (.file target, workspace.write target (.file [])) :=
  openOutput_eq_file.mpr ⟨settled.writable, rfl⟩

/-- Writing the same once more changes nothing. -/
theorem written (diagnostics : Text) :
    (Outcome.written (.exit 0) formatted diagnostics (workspace.write target (.file []))
      (.file target)).workspace = workspace := by
  simp only [Outcome.written]
  rw [Workspace.write_write, settled.rewritten]

/-- What is written is laid out as it is. -/
theorem again (blank : indentation.isBlank = true) (standardInput : Bytes) :
    (transfer ⟨indentation, memory⟩ {}
      [some ((Endpoint.file target).content workspace standardInput)]).result = .ok formatted := by
  rw [Endpoint.content_file, settled.content]
  exact transfer_written blank settled.returned

theorem run_formats {invocation : Invocation} (blank : indentation.isBlank = true)
    (asks : invocation.AsksFor names indentation (Settings.Formats file out)) :
    (invocation.run names memory workspace).ending = .exit 0 ∧
      (invocation.run names memory workspace).ChangesNothing workspace := by
  obtain ⟨settings, asked, proceeds, chosen, formats⟩ := asks
  have starts : Starts names invocation.arguments workspace settings indentation (.file source) :=
    ⟨asked, proceeds, chosen, fun _ => blank, formats.input ▸ settled.readable⟩
  have opened := settled.opened
  rw [← formats.output] at opened
  have returned : (transfer ⟨indentation, memory⟩ {} [some ((Endpoint.file source).content
      (workspace.write target (.file [])) invocation.standardInput)]).result = .ok formatted := by
    rw [Endpoint.content_file, Workspace.content_write_of_ne settled.apart]
    exact settled.returned
  unfold Invocation.run
  rw [starts.runProgram_plain formats.unchecked formats.unverified opened returned]
  exact ⟨rfl, rfl, settled.written _⟩

theorem run_checks {invocation : Invocation} (blank : indentation.isBlank = true)
    (asks : invocation.AsksFor names indentation (Settings.Checks out)) :
    (invocation.run names memory workspace).ending = .exit 0 ∧
      (invocation.run names memory workspace).ChangesNothing workspace := by
  obtain ⟨settings, asked, proceeds, chosen, checks⟩ := asks
  have starts : Starts names invocation.arguments workspace settings indentation (.file target) :=
    ⟨asked, proceeds, chosen, fun _ => blank, checks.input ▸ settled.reread⟩
  obtain ⟨unchanged, accepted, -⟩ :=
    starts.checks (settled.again blank invocation.standardInput) checks.checked
  exact ⟨accepted.mpr settled.content.symm, unchanged⟩

theorem run_verifies {invocation : Invocation} (blank : indentation.isBlank = true)
    (asks : invocation.AsksFor names indentation (Settings.Verifies out)) :
    (invocation.run names memory workspace).ending = .exit 0 ∧
      (invocation.run names memory workspace).ChangesNothing workspace := by
  obtain ⟨settings, asked, proceeds, chosen, verifies⟩ := asks
  have starts : Starts names invocation.arguments workspace settings indentation (.file target) :=
    ⟨asked, proceeds, chosen, fun _ => blank, verifies.input ▸ settled.reread⟩
  have opened := settled.opened
  rw [← verifies.output] at opened
  have same : (Comparison.ofTexts
      (Utf8.decodeEscaped ((Endpoint.file target).content workspace invocation.standardInput))
      (Utf8.decodeEscaped formatted)).difference = none := by
    rw [Endpoint.content_file, settled.content]
    exact difference_self formatted
  unfold Invocation.run
  rw [starts.runProgram_verify (settled.again blank invocation.standardInput)
    verifies.unchecked verifies.verified, same]
  simp only
  rw [opened]
  exact ⟨rfl, rfl, settled.written _⟩

/-- One more run ends well and changes nothing. -/
theorem run_keeps {invocation : Invocation} (blank : indentation.isBlank = true)
    (asks : invocation.AsksFor names indentation (Settings.Keeps file out)) :
    (invocation.run names memory workspace).ending = .exit 0 ∧
      (invocation.run names memory workspace).ChangesNothing workspace := by
  obtain ⟨settings, asked, proceeds, chosen, keeps⟩ := asks
  cases keeps with
  | formats formats =>
      exact settled.run_formats blank ⟨settings, asked, proceeds, chosen, formats⟩
  | checks checks =>
      exact settled.run_checks blank ⟨settings, asked, proceeds, chosen, checks⟩
  | verifies verifies =>
      exact settled.run_verifies blank ⟨settings, asked, proceeds, chosen, verifies⟩

/-- Any number of runs ends well and changes nothing. -/
theorem outcomes_keep {runs : List Invocation} (blank : indentation.isBlank = true)
    (ask : ∀ invocation ∈ runs, invocation.AsksFor names indentation (Settings.Keeps file out)) :
    ∀ outcome ∈ Invocation.outcomes names memory workspace runs,
      outcome.ending = .exit 0 ∧ outcome.ChangesNothing workspace := by
  induction runs with
  | nil =>
      intro outcome member
      cases member
  | cons first rest later =>
      obtain ⟨asks, others⟩ := List.forall_mem_cons.mp ask
      have now := settled.run_keeps blank asks
      rw [Invocation.outcomes]
      refine List.forall_mem_cons.mpr ⟨now, ?_⟩
      rw [now.2.2]
      exact later others

end Settled

/-- A run that formats and ends well has written the layout of its input, and leaves a settled
workspace. -/
theorem settled_of_run {invocation : Invocation}
    (readable : openInput workspace file = .ok (.file source))
    (writable : openOutput workspace (.given out) = .ok (.file target, emptied))
    (apart : source ≠ target) (blank : indentation.isBlank = true)
    (asks : invocation.AsksFor names indentation (Settings.Formats file out))
    (done : (invocation.run names memory workspace).ending = .exit 0) :
    ∃ formatted, Settled ⟨indentation, memory⟩ file out source target formatted
        (invocation.run names memory workspace).workspace ∧
      (transfer ⟨indentation, memory⟩ {} [some (workspace.content source)]).result =
        .ok formatted ∧
      (invocation.run names memory workspace).Delivers workspace (.file target) formatted := by
  obtain ⟨settings, asked, proceeds, chosen, formats⟩ := asks
  have starts : Starts names invocation.arguments workspace settings indentation (.file source) :=
    ⟨asked, proceeds, chosen, fun _ => blank, formats.input ▸ readable⟩
  obtain ⟨reached, rfl⟩ := openOutput_eq_file.mp writable
  rw [← formats.output] at writable
  obtain ⟨formatted, returned⟩ :=
    starts.returned_of_plain formats.unchecked formats.unverified writable done
  have delivered : (invocation.run names memory workspace).Delivers workspace (.file target)
      formatted := by
    unfold Invocation.run
    rw [starts.runProgram_plain formats.unchecked formats.unverified writable returned]
    exact delivers_written writable ..
  have left : (invocation.run names memory workspace).workspace =
      workspace.write target (.file formatted) := by
    unfold Invocation.run
    rw [starts.runProgram_plain formats.unchecked formats.unverified writable returned]
    exact Workspace.write_write workspace target _ _
  rw [Endpoint.content_file, Workspace.content_write_of_ne apart] at returned
  rw [left]
  exact ⟨formatted, settled_written readable reached apart returned, returned, delivered⟩

end Settled

/-- Formatted files stay formatted.  Once a run with a blank unit has formatted a file into another
one and has ended well, the other file holds the layout of the first, whatever bytes that one holds.
From then on, every run that formats again, or checks or verifies the other file, ends well and
leaves all files as they are, and so does any number of such runs in any order. -/
theorem formatted_files_stay {names : Escape.Names} {memory : Memory} {indentation : Indentation}
    {workspace emptied : Workspace} {file out : Text} {source target : Path} {first : Invocation}
    (blank : indentation.isBlank = true)
    (readable : openInput workspace file = .ok (.file source))
    (writable : openOutput workspace (.given out) = .ok (.file target, emptied))
    (apart : source ≠ target)
    (asks : first.AsksFor names indentation (Settings.Formats file out))
    (done : (first.run names memory workspace).ending = .exit 0) :
    (∃ formatted,
        (transfer ⟨indentation, memory⟩ {} [some (workspace.content source)]).result =
            .ok formatted ∧
          (first.run names memory workspace).Delivers workspace (.file target) formatted) ∧
      (∀ invocation : Invocation, invocation.AsksFor names indentation (Settings.Keeps file out) →
        (invocation.run names memory (first.run names memory workspace).workspace).ending =
            .exit 0 ∧
          (invocation.run names memory (first.run names memory workspace).workspace).ChangesNothing
            (first.run names memory workspace).workspace) ∧
      ∀ runs : List Invocation,
        (∀ invocation ∈ runs, invocation.AsksFor names indentation (Settings.Keeps file out)) →
          ∀ outcome ∈
              Invocation.outcomes names memory (first.run names memory workspace).workspace runs,
            outcome.ending = .exit 0 ∧
              outcome.ChangesNothing (first.run names memory workspace).workspace := by
  obtain ⟨formatted, settled, returned, delivered⟩ :=
    settled_of_run readable writable apart blank asks done
  refine ⟨⟨formatted, returned, delivered⟩, ?_, ?_⟩
  · intro invocation keeps
    exact settled.run_keeps blank keeps
  · intro runs keep
    exact settled.outcomes_keep blank keep

/-- A file of two stray bytes, which layout joins to one symbol. -/
def strayWorkspace : Workspace := { entries := [([[0x61]], .file [0xC3, 0x20, 0xA9])] }

/-- A verification refuses the file itself, but formatted into another file it stays as it is. -/
theorem formatted_files_stay_of_stray_bytes :
    (Invocation.run ⟨["--verify", "-t", "-o", "b", "a"], []⟩ .none .ordinary
        strayWorkspace).ending = .exit 2 ∧
      (Indentation.custom [.ofChar '\t']).isBlank = true ∧
      openInput strayWorkspace "a" = .ok (.file [[0x61]]) ∧
      openOutput strayWorkspace (.given "b") =
        .ok (.file [[0x62]], strayWorkspace.write [[0x62]] (.file [])) ∧
      Invocation.AsksFor ⟨["-t", "-o", "b", "a"], []⟩ .none (.custom [.ofChar '\t'])
        (Settings.Formats "a" "b") ∧
      (Invocation.run ⟨["-t", "-o", "b", "a"], []⟩ .none .ordinary strayWorkspace).ending =
        .exit 0 ∧
      ∀ outcome ∈ Invocation.outcomes .none .ordinary
          (Invocation.run ⟨["-t", "-o", "b", "a"], []⟩ .none .ordinary strayWorkspace).workspace
          [⟨["-c", "-t", "b"], []⟩, ⟨["--verify", "-t", "-o", "b", "b"], []⟩,
            ⟨["-t", "-o", "b", "a"], []⟩, ⟨["-c", "-t", "b"], []⟩],
        outcome.ending = .exit 0 ∧ outcome.ChangesNothing
          (Invocation.run ⟨["-t", "-o", "b", "a"], []⟩ .none .ordinary
            strayWorkspace).workspace := by
  have readable : openInput strayWorkspace "a" = .ok (.file [[0x61]]) := by decide +kernel
  have writable : openOutput strayWorkspace (.given "b") =
      .ok (.file [[0x62]], strayWorkspace.write [[0x62]] (.file [])) := by decide +kernel
  have tabbed : ∀ settings : Settings, settings.indent = none → settings.tabs = true →
      settings.Chooses .none (.custom [.ofChar '\t']) := fun _ => .tab
  have formats : Invocation.AsksFor ⟨["-t", "-o", "b", "a"], []⟩ .none (.custom [.ofChar '\t'])
      (Settings.Formats "a" "b") :=
    ⟨{ input := "a", output := .given "b", tabs := true }, by decide +kernel, rfl,
      tabbed _ rfl rfl, ⟨rfl, rfl, rfl, rfl⟩⟩
  have checks : Invocation.AsksFor ⟨["-c", "-t", "b"], []⟩ .none (.custom [.ofChar '\t'])
      (Settings.Checks "b") :=
    ⟨{ input := "b", tabs := true, check := true }, by decide +kernel, rfl, tabbed _ rfl rfl,
      ⟨rfl, rfl⟩⟩
  have verifies : Invocation.AsksFor ⟨["--verify", "-t", "-o", "b", "b"], []⟩ .none
      (.custom [.ofChar '\t']) (Settings.Verifies "b") :=
    ⟨{ input := "b", output := .given "b", tabs := true, verify := true }, by decide +kernel, rfl,
      tabbed _ rfl rfl, ⟨rfl, rfl, rfl, rfl⟩⟩
  have done : (Invocation.run ⟨["-t", "-o", "b", "a"], []⟩ .none .ordinary strayWorkspace).ending =
      .exit 0 := by
    decide +kernel
  have refused : (Invocation.run ⟨["--verify", "-t", "-o", "b", "a"], []⟩ .none .ordinary
      strayWorkspace).ending = .exit 2 := by
    decide +kernel
  refine ⟨refused, by decide, readable, writable, formats, done, ?_⟩
  refine (formatted_files_stay (by decide) readable writable (by decide) formats done).2.2 _ ?_
  have checked : Invocation.AsksFor _ .none _ (Settings.Keeps "a" "b") :=
    checks.weaken fun _ => Settings.Keeps.checks
  have verified : Invocation.AsksFor _ .none _ (Settings.Keeps "a" "b") :=
    verifies.weaken fun _ => Settings.Keeps.verifies
  have formatted := formats.weaken fun _ => Settings.Keeps.formats
  simp only [List.forall_mem_cons, List.not_mem_nil, false_implies, implies_true, and_true]
  exact ⟨checked, verified, formatted, checked⟩

end Reindent
