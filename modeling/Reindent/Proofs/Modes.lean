import Reindent.Proofs.Content
import Reindent.Proofs.Opening
import Reindent.Proofs.StreamContent

/-!
The modes of the program: plain formatting, checks and verifications.

Plain formatting opens its output first and then goes piece by piece; the other two modes read all
input first, and a verification opens its output last.  All three lay out the same bytes alike, and
what tells them apart is whether the input is still there when it is read, and what is done with the
result.

Main statement: what each mode does, for one input and one unit (`modes_agree`).
-/

namespace Reindent

/-! ### What a run does -/

/-- A run leaves a content at an endpoint and changes nothing else.  `before` is the workspace that
the run started in. -/
def Outcome.Delivers (outcome : Outcome) (before : Workspace) (endpoint : Endpoint)
    (content : Bytes) : Prop :=
  match endpoint with
  | .standard => outcome.standardOutput = content ∧ outcome.workspace = before
  | .file path =>
      outcome.standardOutput = [] ∧ outcome.workspace.lookup path = some (.file content) ∧
        ∀ other, other ≠ path → outcome.workspace.lookup other = before.lookup other

/-- A run writes nothing but diagnostics. -/
def Outcome.ChangesNothing (outcome : Outcome) (before : Workspace) : Prop :=
  outcome.standardOutput = [] ∧ outcome.workspace = before

/-- A run says something at its end.  Log lines come before it, if they are asked for. -/
def Outcome.Says (outcome : Outcome) (verbose : Bool) (message : Text) : Prop :=
  ∃ log, outcome.standardError = diagnosticBytes (log ++ message) ∧ (verbose = false → log = [])

/-- Input and output are one file. -/
def SameFile (input output : Endpoint) : Prop := ∃ path, input = .file path ∧ output = .file path

/-- The indentation that settings choose: none is given, or a tab is, or a unit is that is read from
its escapes. -/
inductive Settings.Chooses (names : Escape.Names) (settings : Settings) : Indentation → Prop where
  | standard (unindented : settings.indent = none) (untabbed : settings.tabs = false) :
      Chooses names settings .standard
  | tab (unindented : settings.indent = none) (tabbed : settings.tabs = true) :
      Chooses names settings (.custom [.ofChar '\t'])
  | unit {written unit : Text} (given : settings.indent = some (.given written))
      (untabbed : settings.tabs = false) (decoded : Escape.decode names written = .ok unit) :
      Chooses names settings (.custom unit)

theorem Settings.Chooses.indentation_eq {names : Escape.Names} {settings : Settings}
    {indentation : Indentation} (chosen : settings.Chooses names indentation) :
    settings.indentation names = .ok indentation := by
  cases chosen with
  | standard unindented untabbed => simp [Settings.indentation, unindented, untabbed]
  | tab unindented tabbed => simp [Settings.indentation, unindented, tabbed]
  | unit given untabbed decoded => simp [Settings.indentation, given, untabbed, decoded]

/-- A command line starts a run: it asks for settings that choose a unit, one that is blank if the
content is to be verified, and the input opens. -/
structure Starts (names : Escape.Names) (arguments : List Text) (workspace : Workspace)
    (settings : Settings) (indentation : Indentation) (input : Endpoint) : Prop where
  asked : Settings.ofArguments arguments = .ok settings
  proceeds : settings.version = false
  chosen : settings.Chooses names indentation
  admitted : settings.verify = true → indentation.isBlank = true
  opened : openInput workspace settings.input = .ok input

/-! ### Transfers of a whole content -/

theorem Source.content_single (bytes : Bytes) : Source.content [some bytes] = bytes := by
  cases bytes with
  | nil => rfl
  | cons byte rest => exact List.append_nil _

theorem Transcript.result_eq_ok {transcript : Transcript} {written : Bytes}
    (returned : transcript.result = .ok written) :
    transcript.failure = none ∧ transcript.output = written := by
  unfold Transcript.result at returned
  cases failure : transcript.failure with
  | some error =>
      rw [failure] at returned
      cases returned
  | none =>
      rw [failure] at returned
      cases returned
      exact ⟨rfl, rfl⟩

/-- A transfer of one chunk returns what the run over it has written. -/
theorem transfer_eq_ok_iff {margin : Margin} {bytes written : Bytes} :
    (transfer margin {} [some bytes]).result = .ok written ↔
      ∃ final, run margin .initial bytes = .ok (final, written) := by
  rw [transfer_result, Source.content_single]
  cases run margin .initial bytes with
  | error error => simp [streamed]
  | ok reached =>
      obtain ⟨final, output⟩ := reached
      simp [streamed]

theorem transfer_nothing (margin : Margin) :
    (transfer margin {} [some []]).result = .ok [] := by
  rw [transfer_result]
  rfl

/-- What a transfer comes to depends on the content alone. -/
theorem transfer_whole (margin : Margin) (source : Source) :
    (transfer margin {} [some source.content]).result = (transfer margin {} source).result := by
  rw [transfer_result, Source.content_single, ← transfer_result]

/-! ### Outputs -/

section Outputs

variable {workspace emptied : Workspace} {name : SwitchValue} {output : Endpoint}

/-- An output that opens is the standard output, or a free place, where the file is emptied. -/
theorem openOutput_cases (opened : openOutput workspace name = .ok (output, emptied)) :
    output = .standard ∧ emptied = workspace ∨
      ∃ path, output = .file path ∧ workspace.Free path ∧
        emptied = workspace.write path (.file []) := by
  cases name with
  | lost => cases opened
  | given name =>
      cases output with
      | file path =>
          obtain ⟨reached, rfl⟩ := openOutput_eq_file.mp opened
          exact .inr ⟨path, rfl, free_of_openForWriting reached, rfl⟩
      | standard =>
          unfold openOutput at opened
          simp only at opened
          split at opened
          · cases opened
          · cases opened
            exact .inl ⟨rfl, rfl⟩
          · cases opened

/-- What is written to an output that was opened is delivered there. -/
theorem delivers_written (opened : openOutput workspace name = .ok (output, emptied))
    (ending : Ending) (content : Bytes) (diagnostics : Text) :
    (Outcome.written ending content diagnostics emptied output).Delivers workspace output
      content := by
  rcases openOutput_cases opened with ⟨rfl, rfl⟩ | ⟨path, rfl, free, rfl⟩
  · exact ⟨rfl, rfl⟩
  · refine ⟨rfl, ?_, ?_⟩
    · exact Workspace.lookup_write_self _ _ free.ne_nil
    · intro other elsewhere
      simp only [Outcome.written]
      rw [Workspace.lookup_write_of_ne _ _ elsewhere, Workspace.lookup_write_of_ne _ _ elsewhere]

theorem ending_written (ending : Ending) (content : Bytes) (diagnostics : Text)
    (workspace : Workspace) (output : Endpoint) :
    (Outcome.written ending content diagnostics workspace output).ending = ending := by
  cases output <;> rfl

/-- A run ends well after a transfer exactly if the transfer did not fail. -/
theorem endingAfter_eq_exit_zero {failure : Option StreamError} :
    (endingAfter failure).1 = .exit 0 ↔ failure = none := by
  cases failure with
  | none => exact ⟨fun _ => rfl, fun _ => rfl⟩
  | some error =>
      cases error <;> exact ⟨(fun done => nomatch done), fun none => nomatch none⟩

/-- Opening an output changes no other input. -/
theorem content_of_emptied (opened : openOutput workspace name = .ok (output, emptied))
    (standardInput : Bytes) {input : Endpoint} (apart : ¬SameFile input output) :
    input.content emptied standardInput = input.content workspace standardInput := by
  rcases openOutput_cases opened with ⟨-, rfl⟩ | ⟨path, rfl, -, rfl⟩
  · rfl
  · cases input with
    | standard => rfl
    | file place =>
        have elsewhere : place ≠ path := by
          rintro rfl
          exact apart ⟨place, rfl, rfl⟩
        exact Workspace.content_write_of_ne elsewhere _

/-- Opening an output that is the input empties it. -/
theorem content_of_emptied_self (opened : openOutput workspace name = .ok (output, emptied))
    (standardInput : Bytes) {input : Endpoint} (same : SameFile input output) :
    input.content emptied standardInput = [] := by
  obtain ⟨path, rfl, rfl⟩ := same
  rcases openOutput_cases opened with ⟨standard, -⟩ | ⟨place, here, free, rfl⟩
  · cases standard
  · cases here
    exact Workspace.content_write_self free.ne_nil []

end Outputs

/-! ### Runs, mode by mode -/

/-- What is logged while some bytes are laid out: the unit, and remarks on how they end. -/
def layoutLog (settings : Settings) (margin : Margin) (bytes : Bytes) : Text :=
  logLines settings.verbose .commandLine
      [Text.ofString "indentation: " ++ margin.indentation.describe] ++
    logLines settings.verbose .layout ((transfer margin {} [some bytes]).notes.map Note.message)

/-- What is logged about a verification. -/
def comparisonLog (settings : Settings) (source formatted : Bytes) : Text :=
  logLines settings.verbose .comparison
    [(Comparison.ofTexts (Utf8.decodeEscaped source) (Utf8.decodeEscaped formatted)).describe]

theorem layoutLog_quiet {settings : Settings} (quiet : settings.verbose = false) (margin : Margin)
    (bytes : Bytes) : layoutLog settings margin bytes = [] := by
  simp [layoutLog, logLines, quiet]

theorem comparisonLog_quiet {settings : Settings} (quiet : settings.verbose = false)
    (source formatted : Bytes) : comparisonLog settings source formatted = [] := by
  simp [comparisonLog, logLines, quiet]

section Runs

variable {names : Escape.Names} {memory : Memory} {arguments : List Text} {settings : Settings}
  {indentation : Indentation} {standardInput : Bytes} {workspace emptied : Workspace}
  {input output : Endpoint} {formatted : Bytes}

/-- A run that starts goes on with the mode that is asked for. -/
theorem Starts.runProgram_eq
    (starts : Starts names arguments workspace settings indentation input) :
    runProgram names memory arguments standardInput workspace =
      if settings.check || settings.verify then
        runBuffered settings ⟨indentation, memory⟩
          (logLines settings.verbose .commandLine
            [Text.ofString "indentation: " ++ indentation.describe])
          standardInput workspace input
      else
        runPlain settings ⟨indentation, memory⟩
          (logLines settings.verbose .commandLine
            [Text.ofString "indentation: " ++ indentation.describe])
          standardInput workspace input := by
  have admitted : ¬(settings.verify && !indentation.isBlank) = true := by
    intro refused
    rw [Bool.and_eq_true] at refused
    rw [starts.admitted refused.1] at refused
    exact Bool.noConfusion refused.2
  unfold runProgram
  rw [starts.asked]
  simp only
  unfold runSettings
  rw [if_neg (by simp [starts.proceeds]), starts.chosen.indentation_eq]
  simp only
  rw [if_neg admitted]
  unfold runFormat
  rw [starts.opened]

section Plain

variable (starts : Starts names arguments workspace settings indentation input)
  (unchecked : settings.check = false) (unverified : settings.verify = false)
  (opened : openOutput workspace settings.output = .ok (output, emptied))

include starts unchecked unverified opened

/-- Plain formatting writes what it reads after its output was opened. -/
theorem Starts.runProgram_plain
    (returned : (transfer ⟨indentation, memory⟩ {}
      [some (input.content emptied standardInput)]).result = .ok formatted) :
    runProgram names memory arguments standardInput workspace =
      .written (.exit 0) formatted
        (layoutLog settings ⟨indentation, memory⟩ (input.content emptied standardInput))
        emptied output := by
  obtain ⟨fine, rfl⟩ := Transcript.result_eq_ok returned
  rw [starts.runProgram_eq, if_neg (by simp [unchecked, unverified])]
  unfold runPlain
  rw [opened]
  simp only [fine, endingAfter, List.append_nil]
  rfl

/-- Plain formatting that ends well has laid out what it read. -/
theorem Starts.returned_of_plain
    (done : (runProgram names memory arguments standardInput workspace).ending = .exit 0) :
    ∃ formatted, (transfer ⟨indentation, memory⟩ {}
      [some (input.content emptied standardInput)]).result = .ok formatted := by
  rw [starts.runProgram_eq, if_neg (by simp [unchecked, unverified])] at done
  unfold runPlain at done
  rw [opened] at done
  simp only [ending_written, endingAfter_eq_exit_zero] at done
  unfold Transcript.result
  rw [done]
  exact ⟨_, rfl⟩

end Plain

section Buffered

variable (starts : Starts names arguments workspace settings indentation input)
  (returned : (transfer ⟨indentation, memory⟩ {}
    [some (input.content workspace standardInput)]).result = .ok formatted)

include starts returned

/-- A check compares bytes and writes nothing. -/
theorem Starts.runProgram_check (checked : settings.check = true) :
    runProgram names memory arguments standardInput workspace =
      .quiet (if formatted = input.content workspace standardInput then 0 else 1)
        (layoutLog settings ⟨indentation, memory⟩ (input.content workspace standardInput) ++
          if formatted = input.content workspace standardInput then []
          else lineOf (Text.ofString "would reformat " ++ settings.input))
        workspace := by
  obtain ⟨fine, rfl⟩ := Transcript.result_eq_ok returned
  rw [starts.runProgram_eq, if_pos (by simp [checked])]
  unfold runBuffered
  simp only [fine, endingAfter]
  rw [if_pos checked]
  split
  · rw [List.append_nil]
    rfl
  · rfl

/-- A verification compares lexemes, and opens its output only if it finds no difference. -/
theorem Starts.runProgram_verify (unchecked : settings.check = false)
    (verified : settings.verify = true) :
    runProgram names memory arguments standardInput workspace =
      match (Comparison.ofTexts (Utf8.decodeEscaped (input.content workspace standardInput))
        (Utf8.decodeEscaped formatted)).difference with
      | some difference =>
          .quiet 2
            (layoutLog settings ⟨indentation, memory⟩ (input.content workspace standardInput) ++
              comparisonLog settings (input.content workspace standardInput) formatted ++
              namedLine (settings.input ++ Text.ofString ": " ++ difference.message))
            workspace
      | none =>
          match openOutput workspace settings.output with
          | .error error =>
              .unopened error
                (layoutLog settings ⟨indentation, memory⟩
                    (input.content workspace standardInput) ++
                  comparisonLog settings (input.content workspace standardInput) formatted)
                workspace
          | .ok (output, emptied) =>
              .written (.exit 0) formatted
                (layoutLog settings ⟨indentation, memory⟩
                    (input.content workspace standardInput) ++
                  comparisonLog settings (input.content workspace standardInput) formatted)
                emptied output := by
  obtain ⟨fine, rfl⟩ := Transcript.result_eq_ok returned
  rw [starts.runProgram_eq, if_pos (by simp [verified])]
  unfold runBuffered
  simp only [fine, endingAfter]
  rw [if_neg (by simp [unchecked])]
  rfl

end Buffered

/-! ### What the modes have in common -/

/-- Plain formatting delivers what is laid out, unless it empties its input before it reads it. -/
theorem Starts.formats (starts : Starts names arguments workspace settings indentation input)
    (unchecked : settings.check = false) (unverified : settings.verify = false)
    (opened : openOutput workspace settings.output = .ok (output, emptied))
    (returned : (transfer ⟨indentation, memory⟩ {}
      [some (input.content workspace standardInput)]).result = .ok formatted) :
    (runProgram names memory arguments standardInput workspace).ending = .exit 0 ∧
      (¬SameFile input output →
        (runProgram names memory arguments standardInput workspace).Delivers workspace output
          formatted) ∧
      (SameFile input output →
        (runProgram names memory arguments standardInput workspace).Delivers workspace output
          []) := by
  by_cases same : SameFile input output
  · have nothing : (transfer ⟨indentation, memory⟩ {}
        [some (input.content emptied standardInput)]).result = .ok [] := by
      rw [content_of_emptied_self opened standardInput same]
      exact transfer_nothing _
    rw [starts.runProgram_plain unchecked unverified opened nothing]
    refine ⟨ending_written .., fun apart => absurd same apart, fun _ => ?_⟩
    exact delivers_written opened ..
  · rw [← content_of_emptied opened standardInput same] at returned
    rw [starts.runProgram_plain unchecked unverified opened returned]
    refine ⟨ending_written .., fun _ => ?_, fun one => absurd one same⟩
    exact delivers_written opened ..

section Buffered

variable (starts : Starts names arguments workspace settings indentation input)
  (returned : (transfer ⟨indentation, memory⟩ {}
    [some (input.content workspace standardInput)]).result = .ok formatted)

include starts returned

/-- A check tells by its exit code whether the input is laid out already. -/
theorem Starts.checks (checked : settings.check = true) :
    (runProgram names memory arguments standardInput workspace).ChangesNothing workspace ∧
      ((runProgram names memory arguments standardInput workspace).ending = .exit 0 ↔
        formatted = input.content workspace standardInput) ∧
      (formatted ≠ input.content workspace standardInput →
        (runProgram names memory arguments standardInput workspace).ending = .exit 1 ∧
          (runProgram names memory arguments standardInput workspace).Says settings.verbose
            (lineOf (Text.ofString "would reformat " ++ settings.input))) := by
  rw [starts.runProgram_check returned checked]
  by_cases same : formatted = input.content workspace standardInput
  · rw [if_pos same]
    exact ⟨⟨rfl, rfl⟩, ⟨fun _ => same, fun _ => rfl⟩, fun differs => absurd same differs⟩
  · rw [if_neg same, if_neg same]
    refine ⟨⟨rfl, rfl⟩, ⟨fun done => ?_, fun equal => absurd equal same⟩, fun _ => ⟨rfl, ?_⟩⟩
    · cases done
    · exact ⟨_, rfl, fun quiet => layoutLog_quiet quiet ..⟩

/-- A verification that finds a difference delivers nothing and names it. -/
theorem Starts.refuses (unchecked : settings.check = false) (verified : settings.verify = true)
    {difference : Difference}
    (differs : (Comparison.ofTexts (Utf8.decodeEscaped (input.content workspace standardInput))
      (Utf8.decodeEscaped formatted)).difference = some difference) :
    (runProgram names memory arguments standardInput workspace).ending = .exit 2 ∧
      (runProgram names memory arguments standardInput workspace).ChangesNothing workspace ∧
      (runProgram names memory arguments standardInput workspace).Says settings.verbose
        (namedLine (settings.input ++ Text.ofString ": " ++ difference.message)) := by
  rw [starts.runProgram_verify returned unchecked verified, differs]
  refine ⟨rfl, ⟨rfl, rfl⟩, _, rfl, fun quiet => ?_⟩
  rw [layoutLog_quiet quiet, comparisonLog_quiet quiet]
  rfl

/-- A verification that finds no difference delivers what is laid out. -/
theorem Starts.verifies (unchecked : settings.check = false) (verified : settings.verify = true)
    (opened : openOutput workspace settings.output = .ok (output, emptied))
    (same : (Comparison.ofTexts (Utf8.decodeEscaped (input.content workspace standardInput))
      (Utf8.decodeEscaped formatted)).difference = none) :
    (runProgram names memory arguments standardInput workspace).ending = .exit 0 ∧
      (runProgram names memory arguments standardInput workspace).Delivers workspace output
        formatted := by
  rw [starts.runProgram_verify returned unchecked verified, same]
  simp only
  rw [opened]
  exact ⟨ending_written .., delivers_written opened ..⟩

/-- A verification ends with the exit code 2 exactly if it finds a difference. -/
theorem Starts.exit_two_iff (unchecked : settings.check = false)
    (verified : settings.verify = true) :
    (runProgram names memory arguments standardInput workspace).ending = .exit 2 ↔
      (Comparison.ofTexts (Utf8.decodeEscaped (input.content workspace standardInput))
        (Utf8.decodeEscaped formatted)).difference ≠ none := by
  constructor
  · intro refused same
    rw [starts.runProgram_verify returned unchecked verified, same] at refused
    simp only at refused
    cases opened : openOutput workspace settings.output with
    | ok pair =>
        rw [opened] at refused
        simp only [ending_written] at refused
        cases refused
    | error error =>
        rw [opened] at refused
        cases error <;> cases refused
  · intro differs
    obtain ⟨difference, found⟩ := Option.ne_none_iff_exists'.mp differs
    exact (starts.refuses returned unchecked verified found).1

end Buffered

end Runs

/-- The three modes agree on what is laid out for an input and a unit: plain formatting delivers it
where the input is not emptied by opening the output, a check compares it with the input and changes
nothing, and a verification delivers it, to the input too, or refuses and changes nothing.  It
refuses exactly if the lexemes of input and result differ. -/
theorem modes_agree {names : Escape.Names} {memory : Memory} {arguments : List Text}
    {settings : Settings} {indentation : Indentation} {standardInput formatted : Bytes}
    {workspace : Workspace} {input : Endpoint} {source : Source}
    (starts : Starts names arguments workspace settings indentation input)
    (fed : source.content = input.content workspace standardInput)
    (returned : (transfer ⟨indentation, memory⟩ {} source).result = .ok formatted) :
    (settings.check = false → settings.verify = false →
      ∀ output emptied, openOutput workspace settings.output = .ok (output, emptied) →
        (runProgram names memory arguments standardInput workspace).ending = .exit 0 ∧
          (¬SameFile input output →
            (runProgram names memory arguments standardInput workspace).Delivers workspace output
              formatted) ∧
          (SameFile input output →
            (runProgram names memory arguments standardInput workspace).Delivers workspace output
              [])) ∧
      (settings.check = true →
        (runProgram names memory arguments standardInput workspace).ChangesNothing workspace ∧
          ((runProgram names memory arguments standardInput workspace).ending = .exit 0 ↔
            formatted = source.content) ∧
          (formatted ≠ source.content →
            (runProgram names memory arguments standardInput workspace).ending = .exit 1 ∧
              (runProgram names memory arguments standardInput workspace).Says settings.verbose
                (lineOf (Text.ofString "would reformat " ++ settings.input)))) ∧
      (settings.check = false → settings.verify = true →
        ∀ output emptied, openOutput workspace settings.output = .ok (output, emptied) →
          (Lexeme.ofText (Utf8.decodeEscaped source.content) =
                Lexeme.ofText (Utf8.decodeEscaped formatted) ∧
              (runProgram names memory arguments standardInput workspace).ending = .exit 0 ∧
              (runProgram names memory arguments standardInput workspace).Delivers workspace output
                formatted) ∨
            (Lexeme.ofText (Utf8.decodeEscaped source.content) ≠
                Lexeme.ofText (Utf8.decodeEscaped formatted) ∧
              (runProgram names memory arguments standardInput workspace).ending = .exit 2 ∧
              (runProgram names memory arguments standardInput workspace).ChangesNothing
                workspace)) := by
  rw [← transfer_whole, fed] at returned
  rw [fed]
  refine ⟨fun unchecked unverified output emptied opened => ?_, fun checked => ?_,
    fun unchecked verified output emptied opened => ?_⟩
  · exact starts.formats unchecked unverified opened returned
  · exact starts.checks returned checked
  · cases found : (Comparison.ofTexts (Utf8.decodeEscaped (input.content workspace standardInput))
      (Utf8.decodeEscaped formatted)).difference with
    | none =>
        exact .inl ⟨Comparison.difference_eq_none_iff.mp found,
          starts.verifies returned unchecked verified opened found⟩
    | some difference =>
        obtain ⟨ending, unchanged, -⟩ := starts.refuses returned unchecked verified found
        refine .inr ⟨fun same => ?_, ending, unchanged⟩
        rw [Comparison.difference_eq_none_iff.mpr same] at found
        cases found

/-- A file that is verified and written in place. -/
theorem modes_agree_of_verified_in_place :
    Starts .none ["--verify", "-o", "a", "a"] { entries := [([[0x61]], .file [0x5B, 0x31, 0x5D])] }
        { input := "a", output := .given "a", verify := true } .standard (.file [[0x61]]) ∧
      Source.content [some [0x5B, 0x31], some [0x5D]] =
        (Endpoint.file [[0x61]]).content
          { entries := [([[0x61]], .file [0x5B, 0x31, 0x5D])] } [] ∧
      (transfer ⟨.standard, .ordinary⟩ {} [some [0x5B, 0x31], some [0x5D]]).result =
        .ok [0x5B, 0x0A, 0x20, 0x20, 0x31, 0x0A, 0x5D] ∧
      openOutput { entries := [([[0x61]], .file [0x5B, 0x31, 0x5D])] } (.given "a") =
        .ok (.file [[0x61]], { entries := [([[0x61]], .file [])] }) ∧
      (runProgram .none .ordinary ["--verify", "-o", "a", "a"] []
          { entries := [([[0x61]], .file [0x5B, 0x31, 0x5D])] }).ending = .exit 0 ∧
      (runProgram .none .ordinary ["--verify", "-o", "a", "a"] []
          { entries := [([[0x61]], .file [0x5B, 0x31, 0x5D])] }).Delivers
        { entries := [([[0x61]], .file [0x5B, 0x31, 0x5D])] } (.file [[0x61]])
        [0x5B, 0x0A, 0x20, 0x20, 0x31, 0x0A, 0x5D] := by
  have starts : Starts .none ["--verify", "-o", "a", "a"]
      { entries := [([[0x61]], .file [0x5B, 0x31, 0x5D])] }
      { input := "a", output := .given "a", verify := true } .standard (.file [[0x61]]) := by
    refine ⟨?_, rfl, .standard rfl rfl, fun _ => ?_, ?_⟩ <;> decide +kernel
  have returned : (transfer ⟨.standard, .ordinary⟩ {} [some [0x5B, 0x31], some [0x5D]]).result =
      .ok [0x5B, 0x0A, 0x20, 0x20, 0x31, 0x0A, 0x5D] := by
    rw [transfer_result]
    rfl
  have opened : openOutput { entries := [([[0x61]], .file [0x5B, 0x31, 0x5D])] } (.given "a") =
      .ok (.file [[0x61]], { entries := [([[0x61]], .file [])] }) := by
    decide +kernel
  have fed : Source.content [some [0x5B, 0x31], some [0x5D]] =
      (Endpoint.file [[0x61]]).content
        { entries := [([[0x61]], .file [0x5B, 0x31, 0x5D])] } [] := rfl
  refine ⟨starts, fed, returned, opened, ?_⟩
  rcases (modes_agree starts fed returned).2.2 rfl rfl _ _ opened with ⟨-, done⟩ | ⟨differs, -⟩
  · exact done
  · have same : Lexeme.ofText (Utf8.decodeEscaped [0x5B, 0x31, 0x5D]) =
        Lexeme.ofText (Utf8.decodeEscaped [0x5B, 0x0A, 0x20, 0x20, 0x31, 0x0A, 0x5D]) := by
      decide +kernel
    exact absurd same differs

end Reindent
