import Reindent.Proofs.Modes

/-!
What a run leaves behind.

A run can end in many places: over its arguments, its unit, its input, its output, over a check or a
verification, or in layout.  The workspace is touched in one place only, where the output is opened
and emptied, and by then only layout itself can still fail.  So a run either writes nothing but
diagnostics, or tells what it was asked about itself, or writes to the output it has opened
(`Leaves`), and each way is found by following the program down to it.

Main statement: a run changes at most the file that is named as its output, and changes nothing if
it fails or only checks (`changes_only_on_success`).
-/

namespace Reindent

/-! ### The three things a run can do -/

/-- The file that a command line names as its output. -/
def OutputFile (arguments : List Text) (workspace : Workspace) (path : Path) : Prop :=
  ∃ settings name, Settings.ofArguments arguments = .ok settings ∧
    settings.output = .given name ∧
    openEndpoint workspace.openForWriting name = .ok (.file path)

/-- A run that does not succeed: it ends with an exit code that is not zero, or because the unit
cannot be read or a name is none.  Layout that cannot take a step is not counted. -/
def Ending.Fails : Ending → Prop
  | .exit code => code ≠ 0
  | .defect (.step _) => False
  | .defect (.unit _) | .defect .lostUnit | .defect .lostOutput | .defect (.name _) => True

/-- What a run with some arguments can leave of the workspace that it started in. -/
inductive Leaves (arguments : List Text) (before : Workspace) : Outcome → Prop where
  /-- It writes nothing but diagnostics. -/
  | nothing {outcome : Outcome} (unchanged : outcome.ChangesNothing before) :
      Leaves arguments before outcome
  /-- It explains its arguments or tells its version. -/
  | told {outcome : Outcome} (done : outcome.ending = .exit 0)
      (kept : outcome.workspace = before) : Leaves arguments before outcome
  /-- It opens its output and writes there, and at most layout fails. -/
  | written {settings : Settings} {output : Endpoint} {emptied : Workspace} {ending : Ending}
      {content : Bytes} {diagnostics : Text}
      (asked : Settings.ofArguments arguments = .ok settings) (unchecked : settings.check = false)
      (opened : openOutput before settings.output = .ok (output, emptied))
      (finished : ¬ending.Fails) :
      Leaves arguments before (.written ending content diagnostics emptied output)

section Leaves

variable {arguments : List Text} {before : Workspace} {outcome : Outcome}

/-- A run that fails writes nothing but diagnostics. -/
theorem Leaves.of_fails (leaves : Leaves arguments before outcome)
    (fails : outcome.ending.Fails) : outcome.ChangesNothing before := by
  cases leaves with
  | nothing unchanged => exact unchanged
  | told done _ =>
      rw [done] at fails
      exact absurd rfl fails
  | written _ _ _ finished =>
      rw [ending_written] at fails
      exact absurd fails finished

/-- A check keeps all files. -/
theorem Leaves.of_check (leaves : Leaves arguments before outcome) {settings : Settings}
    (asked : Settings.ofArguments arguments = .ok settings) (checked : settings.check = true) :
    outcome.workspace = before := by
  cases leaves with
  | nothing unchanged => exact unchanged.2
  | told _ kept => exact kept
  | written other unchecked _ _ =>
      rw [asked] at other
      cases other
      rw [checked] at unchecked
      cases unchecked

theorem outputFile_of_openOutput {settings : Settings} {path : Path} {emptied : Workspace}
    (asked : Settings.ofArguments arguments = .ok settings)
    (opened : openOutput before settings.output = .ok (.file path, emptied)) :
    OutputFile arguments before path := by
  cases output : settings.output with
  | lost =>
      rw [output] at opened
      cases opened
  | given name =>
      rw [output] at opened
      exact ⟨settings, name, asked, output, (openOutput_eq_file.mp opened).1⟩

/-- Where a run changes anything, it has put a file at the place that its output leads to. -/
theorem Leaves.changes (leaves : Leaves arguments before outcome) :
    outcome.workspace = before ∨
      ∃ path content, OutputFile arguments before path ∧
        outcome.workspace.lookup path = some (.file content) ∧
        ∀ other, other ≠ path → outcome.workspace.lookup other = before.lookup other := by
  cases leaves with
  | nothing unchanged => exact .inl unchanged.2
  | told _ kept => exact .inl kept
  | @written settings output emptied ending content diagnostics asked _ opened _ =>
      have delivered := delivers_written opened ending content diagnostics
      cases output with
      | standard => exact .inl delivered.2
      | file path =>
          exact .inr ⟨path, content, outputFile_of_openOutput asked opened, delivered.2⟩

end Leaves

/-! ### The program, part by part -/

theorem changesNothing_quiet (code : Nat) (diagnostics : Text) (workspace : Workspace) :
    (Outcome.quiet code diagnostics workspace).ChangesNothing workspace :=
  ⟨rfl, rfl⟩

theorem changesNothing_unopened (error : OpenError) (diagnostics : Text) (workspace : Workspace) :
    (Outcome.unopened error diagnostics workspace).ChangesNothing workspace := by
  cases error <;> exact ⟨rfl, rfl⟩

/-- A transfer that no device disturbs fails in layout, if it fails. -/
theorem failure_of_transfer (margin : Margin) (source : Source) :
    (transfer margin {} source).failure = none ∨
      ∃ error, (transfer margin {} source).failure = some (.step error) := by
  have result := transfer_result margin source
  unfold Transcript.result at result
  cases failure : (transfer margin {} source).failure with
  | none => exact .inl rfl
  | some error =>
      rw [failure] at result
      cases ran : run margin .initial source.content with
      | ok reached =>
          rw [ran] at result
          cases result
      | error stopped =>
          rw [ran] at result
          cases result
          exact .inr ⟨stopped, rfl⟩

/-- So a run that has made its transfer does not fail by an exit code. -/
theorem not_fails_endingAfter (margin : Margin) (source : Source) :
    ¬(endingAfter (transfer margin {} source).failure).1.Fails := by
  rcases failure_of_transfer margin source with failure | ⟨error, failure⟩
  · rw [failure]
    exact fun fails => fails rfl
  · rw [failure]
    exact id

section Parts

variable {arguments : List Text} {settings : Settings} {workspace : Workspace}
  (asked : Settings.ofArguments arguments = .ok settings)

include asked

theorem leaves_runPlain (unchecked : settings.check = false) (margin : Margin)
    (diagnostics : Text) (standardInput : Bytes) (input : Endpoint) :
    Leaves arguments workspace
      (runPlain settings margin diagnostics standardInput workspace input) := by
  unfold runPlain
  cases opened : openOutput workspace settings.output with
  | error error => exact .nothing (changesNothing_unopened error diagnostics workspace)
  | ok pair =>
      obtain ⟨output, emptied⟩ := pair
      exact .written asked unchecked opened (not_fails_endingAfter margin _)

theorem leaves_runBuffered (margin : Margin) (diagnostics : Text) (standardInput : Bytes)
    (input : Endpoint) :
    Leaves arguments workspace
      (runBuffered settings margin diagnostics standardInput workspace input) := by
  unfold runBuffered
  simp only
  split
  · exact .nothing ⟨rfl, rfl⟩
  · exact .nothing (changesNothing_quiet ..)
  · split
    · -- A check: whatever it finds, it only says so.
      split <;> exact .nothing (changesNothing_quiet ..)
    · rename_i unchecked
      split
      · exact .nothing (changesNothing_quiet ..)
      · cases opened : openOutput workspace settings.output with
        | error error => exact .nothing (changesNothing_unopened ..)
        | ok pair =>
            obtain ⟨output, emptied⟩ := pair
            exact .written asked (Bool.eq_false_iff.mpr unchecked) opened (fun fails => fails rfl)

theorem leaves_runFormat (margin : Margin) (standardInput : Bytes) :
    Leaves arguments workspace (runFormat settings margin standardInput workspace) := by
  unfold runFormat
  simp only
  split
  · exact .nothing (changesNothing_unopened ..)
  · split
    · exact leaves_runBuffered asked ..
    · rename_i plain
      rw [Bool.or_eq_true, not_or] at plain
      exact leaves_runPlain asked (Bool.eq_false_iff.mpr plain.1) ..

theorem leaves_runSettings (names : Escape.Names) (memory : Memory) (standardInput : Bytes) :
    Leaves arguments workspace (runSettings names memory settings standardInput workspace) := by
  unfold runSettings
  split
  · exact .told rfl rfl
  · split
    · exact .nothing (changesNothing_quiet ..)
    · exact .nothing ⟨rfl, rfl⟩
    · split
      · exact .nothing (changesNothing_quiet ..)
      · exact leaves_runFormat asked ..

end Parts

theorem leaves_runProgram (names : Escape.Names) (memory : Memory) (arguments : List Text)
    (standardInput : Bytes) (workspace : Workspace) :
    Leaves arguments workspace (runProgram names memory arguments standardInput workspace) := by
  unfold runProgram
  split
  · exact .told rfl rfl
  · exact .nothing (changesNothing_quiet ..)
  · rename_i settings asked
    exact leaves_runSettings asked ..

/-- A run puts a file at the place that its output leads to, or keeps all files, and no other place
changes.  A run that fails writes nothing at all but diagnostics, and one that only checks keeps all
files however it ends. -/
theorem changes_only_on_success (names : Escape.Names) (memory : Memory) (arguments : List Text)
    (standardInput : Bytes) (workspace : Workspace) :
    ((runProgram names memory arguments standardInput workspace).workspace = workspace ∨
        ∃ path content, OutputFile arguments workspace path ∧
          (runProgram names memory arguments standardInput workspace).workspace.lookup path =
            some (.file content) ∧
          ∀ other, other ≠ path →
            (runProgram names memory arguments standardInput workspace).workspace.lookup other =
              workspace.lookup other) ∧
      ((runProgram names memory arguments standardInput workspace).ending.Fails →
        (runProgram names memory arguments standardInput workspace).ChangesNothing workspace) ∧
      ∀ settings, Settings.ofArguments arguments = .ok settings → settings.check = true →
        (runProgram names memory arguments standardInput workspace).workspace = workspace := by
  have leaves := leaves_runProgram names memory arguments standardInput workspace
  exact ⟨leaves.changes, leaves.of_fails, fun _ asked checked => leaves.of_check asked checked⟩

/-- A file of two stray bytes, which layout would join, and another file. -/
def refusedWorkspace : Workspace :=
  { entries := [([[0x61]], .file [0xC3, 0x20, 0xA9]), ([[0x62]], .file [0x31])] }

/-- A verification that is refused keeps the output that is there already. -/
theorem changes_only_on_success_of_refused :
    OutputFile ["--verify", "-o", "b", "a"] refusedWorkspace [[0x62]] ∧
      (runProgram .none .ordinary ["--verify", "-o", "b", "a"] [] refusedWorkspace).ending =
        .exit 2 ∧
      (runProgram .none .ordinary ["--verify", "-o", "b", "a"] [] refusedWorkspace).ChangesNothing
        refusedWorkspace := by
  have refused :
      (runProgram .none .ordinary ["--verify", "-o", "b", "a"] [] refusedWorkspace).ending =
        .exit 2 := by
    decide +kernel
  refine ⟨?_, refused, ?_⟩
  · exact ⟨{ input := "a", output := .given "b", verify := true }, "b", by decide +kernel, rfl,
      by decide +kernel⟩
  · apply (changes_only_on_success ..).2.1
    rw [refused]
    exact Nat.succ_ne_zero 1

end Reindent
