import Reindent.Layout.Stream

/-!
A stream that nothing disturbs, as a whole.

How a source cuts its bytes into chunks, and how reads cut them again, does not show in what a
transfer writes, in how it fails, or in its remarks: these are those of one run over all the bytes
up to the end of the stream.

Main statements: `transfer_result` and `transfer_notes`.
-/

namespace Reindent

namespace Source

/-- The bytes that a source delivers before its first end. -/
def content : Source → Bytes
  | [] => []
  | none :: _ => []
  | some chunk :: rest => if chunk.isEmpty then [] else chunk ++ content rest

theorem read_whole {chunk : Bytes} (last : (chunk.drop readSize).isEmpty = true)
    (rest : Source) : read (some chunk :: rest) = (chunk, rest) := if_pos last

theorem read_part {chunk : Bytes} (longer : ¬(chunk.drop readSize).isEmpty = true)
    (rest : Source) :
    read (some chunk :: rest) = (chunk.take readSize, some (chunk.drop readSize) :: rest) :=
  if_neg longer

/-- Cutting a chunk in two does not change what is delivered. -/
theorem content_part {chunk : Bytes} (longer : ¬(chunk.drop readSize).isEmpty = true)
    (rest : Source) :
    content (some chunk :: rest) =
      chunk.take readSize ++ content (some (chunk.drop readSize) :: rest) := by
  have something : ¬chunk.isEmpty = true := by
    intro empty
    apply longer
    rw [List.isEmpty_iff.mp empty]
    rfl
  rw [content, content, if_neg something, if_neg longer, ← List.append_assoc,
    List.take_append_drop]

/-- A read that delivers nothing is the end. -/
theorem content_of_read_empty {source : Source} (ended : source.read.1.isEmpty = true) :
    source.content = [] := by
  match source with
  | [] => rfl
  | none :: rest => rfl
  | some chunk :: rest =>
      by_cases last : (chunk.drop readSize).isEmpty = true
      · rw [read_whole last] at ended
        rw [content, if_pos ended]
      · -- A chunk above the read size cannot be delivered as nothing.
        rw [read_part last] at ended
        rcases List.take_eq_nil_iff.mp (List.isEmpty_iff.mp ended) with none | none
        · cases none
        · rw [none] at last
          exact absurd rfl last

/-- A read that delivers something delivers the front of the content, and leaves the rest. -/
theorem content_read {source : Source} (delivered : ¬source.read.1.isEmpty = true) :
    source.content = source.read.1 ++ source.read.2.content := by
  match source with
  | [] => exact absurd rfl delivered
  | none :: rest => exact absurd rfl delivered
  | some chunk :: rest =>
      by_cases last : (chunk.drop readSize).isEmpty = true
      · rw [read_whole last] at delivered ⊢
        rw [content, if_neg delivered]
      · rw [read_part last, content_part last]

end Source

/-- What a transfer comes to: all that was written, or the failure. -/
def Transcript.result (transcript : Transcript) : Except StreamError Bytes :=
  match transcript.failure with
  | some error => .error error
  | none => .ok transcript.output

/-- What a run comes to as a transfer. -/
def streamed : Except StepError (State × Bytes) → Except StreamError Bytes
  | .error error => .error (.step error)
  | .ok (_, written) => .ok written

/-- The remarks on a run. -/
def remarks : Except StepError (State × Bytes) → List Note
  | .error _ => []
  | .ok (final, _) => final.endNotes

/-- Writing something first puts it in front of the result. -/
theorem Transcript.result_cons (later : Transcript) (reads : Nat) (written : Bytes) :
    { later with reads := reads, writes := written :: later.writes }.result =
      match later.result with
      | .error error => .error error
      | .ok output => .ok (written ++ output) := by
  unfold result output
  simp only
  cases later.failure <;> rfl

/-- The transfer of what a source has left is the run over it, from wherever layout stands. -/
theorem transferFrom_eq (margin : Margin) (count : Nat) (state : State) (source : Source) :
    (transferFrom margin {} count state source).result =
        streamed (run margin state source.content) ∧
      (transferFrom margin {} count state source).notes =
        remarks (run margin state source.content) := by
  induction left : source.size using Nat.strongRecOn generalizing count state source with
  | ind size later =>
      rw [transferFrom]
      rw [if_neg (by simp)]
      by_cases ended : source.read.1.isEmpty = true
      · rw [dif_pos ended, Source.content_of_read_empty ended]
        exact ⟨rfl, rfl⟩
      · have less := Source.size_read (by simpa using ended)
        rw [dif_neg ended, Source.content_read ended, run_append]
        cases run margin state source.read.1 with
        | error error => exact ⟨rfl, rfl⟩
        | ok outcome =>
            obtain ⟨after, written⟩ := outcome
            obtain ⟨result, notes⟩ :=
              later source.read.2.size (by omega) (count + 1) after source.read.2 rfl
            simp only
            rw [if_neg (by simp), Transcript.result_cons, result, notes]
            cases run margin after source.read.2.content <;> exact ⟨rfl, rfl⟩

/-- A transfer writes what one run over the content writes, or fails as it does. -/
theorem transfer_result (margin : Margin) (source : Source) :
    (transfer margin {} source).result = streamed (run margin .initial source.content) :=
  (transferFrom_eq margin 0 .initial source).1

theorem transfer_notes (margin : Margin) (source : Source) :
    (transfer margin {} source).notes = remarks (run margin .initial source.content) :=
  (transferFrom_eq margin 0 .initial source).2

end Reindent
