import Reindent.Layout.Run

/-!
Reindenting a stream.

A source delivers its bytes piece by piece and a sink takes what each piece turns into.  Memory is
bounded by one piece, since layout carries nothing but its state from one to the next.  Reads,
writes and the final flush may fail; the first failure ends the transfer and keeps what was written
before.  A transfer is told as a transcript of its effects.

Main statement: a read that delivers something leaves less to read (`size_read`), which is why a
transfer ends.
-/

namespace Reindent

/-- What a source has still to deliver: chunks of bytes, with `none` for an end of the stream that
may have more behind it. -/
abbrev Source := List (Option Bytes)

namespace Source

/-- The most bytes that one read asks for. -/
def readSize : Nat := 8192

/-- One read: the bytes delivered, none at the end of the stream, and what is left.  A chunk above
the read size is delivered in part. -/
def read : Source → Bytes × Source
  | [] => ([], [])
  | none :: rest => ([], rest)
  | some chunk :: rest =>
      let more := chunk.drop readSize
      if more.isEmpty then (chunk, rest) else (chunk.take readSize, some more :: rest)

/-- A measure of what is left to deliver. -/
def size : Source → Nat
  | [] => 0
  | none :: rest => 1 + size rest
  | some chunk :: rest => chunk.length + 1 + size rest

/-- A read that delivers something leaves less. -/
theorem size_read {source : Source} (delivered : source.read.1.isEmpty = false) :
    source.read.2.size < source.size := by
  fun_cases read source with
  | case1 => simp [read] at delivered
  | case2 rest => simp [read] at delivered
  | case3 chunk rest more last =>
      simp only [size]
      omega
  | case4 chunk rest more longer =>
      have left : more ≠ [] := by simpa using longer
      have some_left : 0 < chunk.length - readSize := by
        simpa [more] using List.length_pos_iff.mpr left
      simp only [size, more, List.length_drop, readSize] at some_left ⊢
      omega

end Source

/-- Which reads and writes fail, counted from zero, and whether the flush does. -/
structure Faults where
  read : Option Nat := none
  write : Option Nat := none
  flush : Bool := false

/-- Why a transfer fails. -/
inductive StreamError where
  | readFailed
  | writeFailed
  | flushFailed
  | step (error : StepError)
deriving DecidableEq

/-- What a failed transfer reports. -/
def StreamError.message : StreamError → Text
  | .readFailed => "read failed"
  | .writeFailed => "write failed"
  | .flushFailed => "flush failed"
  | .step error => error.message

/-- A remark on how a stream ended. -/
inductive Note where
  /-- Containers are open at the end. -/
  | unclosedContainers (count : Int)
  /-- A string is open at the end. -/
  | openString
deriving DecidableEq

/-- A remark as a log line words it. -/
def Note.message : Note → Text
  | .unclosedContainers count =>
      Text.ofString "end of stream with " ++ Text.ofInt count ++
        Text.ofString " unclosed container(s)"
  | .openString => "end of stream inside a string"

/-- The remarks on a stream that ends in a state. -/
def State.endNotes (state : State) : List Note :=
  (if state.level = 0 then [] else [.unclosedContainers state.level]) ++
    if state.mode = .string then [.openString] else []

/-- The effects of a transfer, in order within each kind. -/
structure Transcript where
  /-- How many reads were made. -/
  reads : Nat := 0
  /-- What each write that succeeded wrote. -/
  writes : List Bytes := []
  /-- How many flushes were made. -/
  flushes : Nat := 0
  notes : List Note := []
  failure : Option StreamError := none

/-- All that was written. -/
def Transcript.output (transcript : Transcript) : Bytes := transcript.writes.flatten

/-- The end of a transfer: one flush, and the remarks if it succeeds. -/
def finish (faults : Faults) (state : State) : Transcript :=
  if faults.flush then { flushes := 1, failure := some .flushFailed }
  else { flushes := 1, notes := state.endNotes }

/-- Transfer what a source has left; `count` pieces were transferred before. -/
def transferFrom (margin : Margin) (faults : Faults) (count : Nat) (state : State)
    (source : Source) : Transcript :=
  if faults.read = some count then
    { reads := 1, failure := some .readFailed }
  else if _delivered : source.read.1.isEmpty then
    { finish faults state with reads := 1 }
  else
    match run margin state source.read.1 with
    | .error error => { reads := 1, failure := some (.step error) }
    | .ok (after, written) =>
        if faults.write = some count then
          { reads := 1, failure := some .writeFailed }
        else
          let later := transferFrom margin faults (count + 1) after source.read.2
          { later with reads := later.reads + 1, writes := written :: later.writes }
termination_by source.size
decreasing_by exact Source.size_read (by simpa using _delivered)

/-- Transfer a stream: one write for each piece that is read, and a flush at the end. -/
def transfer (margin : Margin) (faults : Faults) (source : Source) : Transcript :=
  transferFrom margin faults 0 .initial source

end Reindent
