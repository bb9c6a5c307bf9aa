import Reindent.CommandLine.Program

/-!
The executable.

`runProgram` decides everything.  Here its input is gathered and its outcome is carried out: the
places that the command line names are read into a workspace beforehand, and what the run changed
there is written back afterwards.  No table of character names comes with it.
-/

namespace Reindent.Executable

/-- A place as the system names it, if its names can be written so. -/
def systemName? (path : Path) : Option String :=
  (path.mapM fun name => (Utf8.decode? name).map fun text =>
    String.ofList (text.map fun c => Char.ofNat c.value)).map fun names =>
      "/" ++ "/".intercalate names

/-- The place that the system names so. -/
def pathOf (name : String) : Path :=
  (Workspace.components name.toUTF8.toList).filter fun part => !part.isEmpty

/-- What stands at a place.  What exists and is not of a type that can be read is a directory. -/
def survey (path : Path) : IO (Option Entry) := do
  match systemName? path with
  | none => return none
  | some name =>
      match ← (IO.FS.realPath name).toBaseIO with
      | .error _ => return none
      | .ok place =>
          match ← (IO.FS.readBinFile place).toBaseIO with
          | .ok content => return some (.file content.toList)
          | .error (.inappropriateType ..) => return some .directory
          | .error error => throw error

/-- Add all places that a name passes to a workspace. -/
def load (workspace : Workspace) (name : Text) : IO Workspace := do
  match nameBytes name with
  | .error _ => return workspace
  | .ok row =>
      (workspace.places row).foldlM (fun workspace path => do
        match ← survey path with
        | none => return workspace
        | some entry => return workspace.write path entry) workspace

/-- The names that settings refer to. -/
def namesOf (settings : Settings) : List Text :=
  let outputs := match settings.output with
    | .given name => [name]
    | .lost => []
  (settings.input :: outputs).filter fun name => name ≠ hyphen

/-- Everything that a stream holds. -/
partial def readAll (stream : IO.FS.Stream) (before : ByteArray) : IO ByteArray := do
  let piece ← stream.read Source.readSize.toUSize
  if piece.isEmpty then return before else readAll stream (before ++ piece)

/-- Write back what a run changed. -/
def store (before after : Workspace) : IO Unit :=
  after.entries.forM fun (path, entry) => do
    match entry, systemName? path with
    | .file content, some name =>
        if before.lookup path ≠ some entry then
          IO.FS.writeBinFile name ⟨content.toArray⟩
    | _, _ => return

/-- Write bytes to a stream. -/
def emit (stream : IO.FS.Stream) (bytes : Bytes) : IO Unit := do
  stream.write ⟨bytes.toArray⟩
  stream.flush

/-- Gather the input of a run, run, and carry the outcome out. -/
def execute (arguments : List Text) : IO UInt32 := do
  let directory := pathOf (← IO.currentDir).toString
  let empty : Workspace := { directory := directory }
  let (workspace, standardInput) ← match Settings.ofArguments arguments with
    | .error _ => pure (empty, ByteArray.empty)
    | .ok settings => do
        let workspace ← (namesOf settings).foldlM load empty
        let reads := settings.input = hyphen ∧ settings.version = false
        let standardInput ←
          if reads then readAll (← IO.getStdin) ByteArray.empty else pure ByteArray.empty
        pure (workspace, standardInput)
  let outcome := runProgram .none .ordinary arguments standardInput.toList workspace
  store workspace outcome.workspace
  emit (← IO.getStdout) outcome.standardOutput
  emit (← IO.getStderr) outcome.standardError
  match outcome.ending with
  | .exit code => return code.toUInt32
  | .defect defect =>
      emit (← IO.getStderr) (diagnosticBytes (namedLine defect.message))
      return 1

end Reindent.Executable

/-- Run with the arguments of the command line. -/
def main (arguments : List String) : IO UInt32 :=
  Reindent.Executable.execute (arguments.map Reindent.Text.ofString)
