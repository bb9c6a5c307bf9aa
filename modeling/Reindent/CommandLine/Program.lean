import Reindent.CommandLine.Settings
import Reindent.CommandLine.Workspace
import Reindent.Layout.Stream
import Reindent.Lexeme.Comparison
import Reindent.Text.Escape

/-!
The program: what a command line does to files and streams.

Usage errors come first, then the explanation or the version if one is asked for, then the
indentation unit, then the input.  Plain formatting opens the output before it reads the input, so
an output that is the input empties it.  A check and a verification read all input first: a check
writes nothing, and a verification writes only if the content is the same.

A run ends with an exit code, or with a defect: a failure that the program has no message for.
-/

namespace Reindent

/-- A failure that the program does not handle. -/
inductive Defect where
  /-- The unit has a malformed escape. -/
  | unit (error : Escape.Error)
  /-- The unit is lost on the command line. -/
  | lostUnit
  /-- The output's name is lost on the command line. -/
  | lostOutput
  /-- A name is none. -/
  | name (error : NameError)
  /-- Layout cannot take a step. -/
  | step (error : StepError)
deriving DecidableEq

/-- What a defect reports.  A value that is lost is an empty list where a text is needed. -/
def Defect.message : Defect → Text
  | .unit error => error.message
  | .lostUnit => "'list' object has no attribute 'encode'"
  | .lostOutput => "expected str, bytes or os.PathLike object, not list"
  | .name error => error.message
  | .step error => error.message

/-- How a run ends. -/
inductive Ending where
  | exit (code : Nat)
  | defect (defect : Defect)
deriving DecidableEq

/-- What a run leaves behind. -/
structure Outcome where
  ending : Ending
  standardOutput : Bytes := []
  standardError : Bytes := []
  workspace : Workspace
deriving DecidableEq

/-- The bytes of a diagnostic text.  Surrogates, which have no bytes, are shown as escapes. -/
def diagnosticBytes (text : Text) : Bytes :=
  text.flatMap fun c =>
    if c.isSurrogate then c.hexEscape.flatMap Utf8.bytesOf else Utf8.bytesOf c

/-- A line of a text. -/
def lineOf (text : Text) : Text := text ++ [.ofChar '\n']

/-- A line in front of which the program states its name. -/
def namedLine (text : Text) : Text := lineOf (Text.ofString "nufmt: " ++ text)

/-- The parts of the program that log. -/
inductive LogChannel where
  | commandLine
  | layout
  | comparison
deriving DecidableEq

/-- The label of a channel in log lines. -/
def LogChannel.label : LogChannel → String
  | .commandLine => "nufmt:cli"
  | .layout => "nufmt:engine"
  | .comparison => "nufmt:verify"

/-- Log lines, which appear only if they are asked for. -/
def logLines (verbose : Bool) (channel : LogChannel) (messages : List Text) : Text :=
  if verbose then
    messages.flatMap fun message =>
      lineOf (Text.ofString "DEBUG:" ++ Text.ofString channel.label ++ Text.ofString ":" ++
        message)
  else
    []

/-- The name of the standard streams. -/
def hyphen : Text := [.ofChar '-']

/-- Where input comes from or output goes to. -/
inductive Endpoint where
  /-- A standard stream. -/
  | standard
  /-- The file at a place. -/
  | file (path : Path)
deriving DecidableEq

/-- Why an endpoint is not opened. -/
inductive OpenError where
  | system (error : SystemError) (name : Text)
  | defect (defect : Defect)
deriving DecidableEq

/-- Open a name by way of its bytes, unless it is that of a standard stream. -/
def openEndpoint (openRow : Bytes → Except SystemError Path) (name : Text) :
    Except OpenError Endpoint :=
  if name = hyphen then
    .ok .standard
  else
    match nameBytes name with
    | .error error => .error (.defect (.name error))
    | .ok row =>
        match openRow row with
        | .error error => .error (.system error name)
        | .ok path => .ok (.file path)

/-- Open the input. -/
def openInput (workspace : Workspace) (name : Text) : Except OpenError Endpoint :=
  openEndpoint workspace.openForReading name

/-- Open the output, which empties its file.  The result is the workspace with the empty file. -/
def openOutput (workspace : Workspace) (name : SwitchValue) :
    Except OpenError (Endpoint × Workspace) :=
  match name with
  | .lost => .error (.defect .lostOutput)
  | .given name =>
      match openEndpoint workspace.openForWriting name with
      | .error error => .error error
      | .ok .standard => .ok (.standard, workspace)
      | .ok (.file path) => .ok (.file path, workspace.write path (.file []))

/-- All that an input holds. -/
def Endpoint.content (workspace : Workspace) (standardInput : Bytes) : Endpoint → Bytes
  | .standard => standardInput
  | .file path => workspace.content path

/-- A run that ends with an exit code and writes nothing but diagnostics. -/
def Outcome.quiet (code : Nat) (diagnostics : Text) (workspace : Workspace) : Outcome where
  ending := .exit code
  standardError := diagnosticBytes diagnostics
  workspace := workspace

/-- A run that fails to open an endpoint. -/
def Outcome.unopened (error : OpenError) (diagnostics : Text) (workspace : Workspace) : Outcome :=
  match error with
  | .system error name =>
      .quiet 1 (diagnostics ++ namedLine (error.message name)) workspace
  | .defect defect =>
      { ending := .defect defect
        standardError := diagnosticBytes diagnostics
        workspace := workspace }

/-- A run that ends with a usage error. -/
def Outcome.usage (error : UsageError) (workspace : Workspace) : Outcome :=
  .quiet 2 (usageText ++ namedLine (Text.ofString "error: " ++ error.message)) workspace

/-- The outcome of writing to an endpoint that is open. -/
def Outcome.written (ending : Ending) (output : Bytes) (diagnostics : Text)
    (workspace : Workspace) : Endpoint → Outcome
  | .standard =>
      { ending := ending
        standardOutput := output
        standardError := diagnosticBytes diagnostics
        workspace := workspace }
  | .file path =>
      { ending := ending
        standardError := diagnosticBytes diagnostics
        workspace := workspace.write path (.file output) }

/-- How a run ends after a transfer, and what it says about it. -/
def endingAfter (failure : Option StreamError) : Ending × Text :=
  match failure with
  | none => (.exit 0, [])
  | some (.step error) => (.defect (.step error), [])
  | some error => (.exit 1, namedLine error.message)

/-- The indentation that settings ask for, with a table of the names that its unit may use. -/
def Settings.indentation (names : Escape.Names) (settings : Settings) :
    Except (UsageError ⊕ Defect) Indentation :=
  if settings.indent.isSome && settings.tabs then
    .error (.inl .tabsAndIndent)
  else if settings.tabs then
    .ok (.custom [.ofChar '\t'])
  else
    match settings.indent with
    | none => .ok .standard
    | some .lost => .error (.inr .lostUnit)
    | some (.given unit) =>
        match Escape.decode names unit with
        | .error error => .error (.inr (.unit error))
        | .ok unit => .ok (.custom unit)

/-- Format piece by piece.  `diagnostics` was said before. -/
def runPlain (settings : Settings) (margin : Margin) (diagnostics : Text)
    (standardInput : Bytes) (workspace : Workspace) (input : Endpoint) : Outcome :=
  match openOutput workspace settings.output with
  | .error error => .unopened error diagnostics workspace
  | .ok (output, workspace) =>
      let transcript :=
        transfer margin {} [some (input.content workspace standardInput)]
      let (ending, complaint) := endingAfter transcript.failure
      let log := logLines settings.verbose .layout (transcript.notes.map Note.message)
      .written ending transcript.output (diagnostics ++ log ++ complaint) workspace output

/-- Format the whole input and compare, by bytes for a check and by content for a verification. -/
def runBuffered (settings : Settings) (margin : Margin) (diagnostics : Text)
    (standardInput : Bytes) (workspace : Workspace) (input : Endpoint) : Outcome :=
  let source := input.content workspace standardInput
  let transcript := transfer margin {} [some source]
  let result := transcript.output
  let log := logLines settings.verbose .layout (transcript.notes.map Note.message)
  let diagnostics := diagnostics ++ log
  match endingAfter transcript.failure with
  | (.defect defect, complaint) =>
      { ending := .defect defect
        standardError := diagnosticBytes (diagnostics ++ complaint)
        workspace := workspace }
  | (.exit (code + 1), complaint) => .quiet (code + 1) (diagnostics ++ complaint) workspace
  | (.exit 0, _) =>
      if settings.check then
        if result = source then
          .quiet 0 diagnostics workspace
        else
          .quiet 1
            (diagnostics ++ lineOf (Text.ofString "would reformat " ++ settings.input))
            workspace
      else
        let comparison :=
          Comparison.ofTexts (Utf8.decodeEscaped source) (Utf8.decodeEscaped result)
        let diagnostics :=
          diagnostics ++ logLines settings.verbose .comparison [comparison.describe]
        match comparison.difference with
        | some difference =>
            .quiet 2
              (diagnostics ++
                namedLine (settings.input ++ Text.ofString ": " ++ difference.message))
              workspace
        | none =>
            match openOutput workspace settings.output with
            | .error error => .unopened error diagnostics workspace
            | .ok (output, workspace) =>
                .written (.exit 0) result diagnostics workspace output

/-- Run with settings and a margin that fit together. -/
def runFormat (settings : Settings) (margin : Margin) (standardInput : Bytes)
    (workspace : Workspace) : Outcome :=
  let diagnostics := logLines settings.verbose .commandLine
    [Text.ofString "indentation: " ++ margin.indentation.describe]
  match openInput workspace settings.input with
  | .error error => .unopened error diagnostics workspace
  | .ok input =>
      if settings.check || settings.verify then
        runBuffered settings margin diagnostics standardInput workspace input
      else
        runPlain settings margin diagnostics standardInput workspace input

/-- The line that states the version. -/
def versionText : Text := lineOf "nufmt v0.1."

/-- Run with settings, on a machine that knows these names and has so much memory. -/
def runSettings (names : Escape.Names) (memory : Memory) (settings : Settings)
    (standardInput : Bytes) (workspace : Workspace) : Outcome :=
  if settings.version then
    { ending := .exit 0
      standardOutput := diagnosticBytes versionText
      workspace := workspace }
  else
    match settings.indentation names with
    | .error (.inl error) => .usage error workspace
    | .error (.inr defect) => { ending := .defect defect, workspace := workspace }
    | .ok indentation =>
        if settings.verify && !indentation.isBlank then .usage .unitNotBlank workspace
        else runFormat settings ⟨indentation, memory⟩ standardInput workspace

/-- Run with the arguments of a command line, on a machine that knows these names and has so much
memory. -/
def runProgram (names : Escape.Names) (memory : Memory) (arguments : List Text)
    (standardInput : Bytes) (workspace : Workspace) : Outcome :=
  match Settings.ofArguments arguments with
  | .error .help =>
      { ending := .exit 0
        standardOutput := diagnosticBytes helpText
        workspace := workspace }
  | .error (.usage error) => .usage error workspace
  | .ok settings => runSettings names memory settings standardInput workspace

end Reindent
