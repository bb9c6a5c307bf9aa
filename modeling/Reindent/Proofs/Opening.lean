import Reindent.CommandLine.Program

/-!
Opening names, before and after a file is written.

A name that opens leads through directories to a place: to a file, or for writing also to a place
where nothing stands yet, and never to a directory.  Writing a file there leaves every directory as
it was, so all names that opened before open again and lead to where they led, and the name that was
written to opens for reading too.

Main statements: `openForReading_write`, `openForWriting_write` and `openForReading_written`.
-/

namespace Reindent

namespace Workspace

variable {workspace : Workspace} {path other : Path} {row content : Bytes}

/-! ### Writing -/

/-- A place where a file may be written: no directory stands there. -/
def Free (workspace : Workspace) (path : Path) : Prop := workspace.lookup path ≠ some .directory

/-- The root is a directory. -/
theorem Free.ne_nil (free : workspace.Free path) : path ≠ [] := by
  rintro rfl
  exact free rfl

theorem content_write_self (inside : path ≠ []) (content : Bytes) :
    (workspace.write path (.file content)).content path = content := by
  unfold Workspace.content
  rw [lookup_write_self workspace _ inside]

theorem content_write_of_ne (elsewhere : other ≠ path) (entry : Entry) :
    (workspace.write path entry).content other = workspace.content other := by
  unfold Workspace.content
  rw [lookup_write_of_ne workspace entry elsewhere]

/-- Of two writes to one place the later one counts. -/
theorem write_write (workspace : Workspace) (path : Path) (first second : Entry) :
    (workspace.write path first).write path second = workspace.write path second := by
  unfold write
  simp only [List.filter_cons, List.filter_filter]
  simp

/-- Writing a file to a free place leaves every directory where it was. -/
theorem lookup_write_directory (free : workspace.Free path) (content : Bytes)
    (directory : workspace.lookup other = some .directory) :
    (workspace.write path (.file content)).lookup other = some .directory := by
  have elsewhere : other ≠ path := by
    rintro rfl
    exact free directory
  rw [lookup_write_of_ne workspace _ elsewhere]
  exact directory

/-- What was a free place stays free. -/
theorem Free.write (free : workspace.Free path) (free_other : workspace.Free other)
    (content : Bytes) : (workspace.write path (.file content)).Free other := by
  unfold Free
  by_cases same : other = path
  · rw [same, lookup_write_self workspace _ free.ne_nil]
    simp
  · rw [lookup_write_of_ne workspace _ same]
    exact free_other

/-! ### Walking -/

/-- A walk that arrives does so again after a write. -/
theorem walk_write (free : workspace.Free path) (content : Bytes) {directory final : Path}
    {names : List Bytes} (arrived : workspace.walk directory names = .ok final) :
    (workspace.write path (.file content)).walk directory names = .ok final := by
  induction names generalizing directory with
  | nil => exact arrived
  | cons name rest later =>
      rw [walk] at arrived ⊢
      by_cases long : longestName < name.length
      · rw [if_pos long] at arrived
        cases arrived
      · rw [if_neg long] at arrived ⊢
        cases standing : workspace.lookup (child directory name) with
        | none =>
            rw [standing] at arrived
            cases arrived
        | some entry =>
            cases entry with
            | file _ =>
                rw [standing] at arrived
                cases arrived
            | directory =>
                rw [standing] at arrived
                rw [lookup_write_directory free content standing]
                exact later arrived

theorem destination_write (free : workspace.Free path) (content : Bytes)
    {destination : Destination} (arrived : workspace.destination row = .ok destination) :
    (workspace.write path (.file content)).destination row = .ok destination := by
  unfold Workspace.destination at arrived ⊢
  split at arrived
  · cases arrived
  split at arrived
  · cases arrived
  rename_i something short
  rw [if_neg something, if_neg short]
  simp only at arrived ⊢
  split at arrived
  · cases arrived
  · rename_i directory walked
    have again := walk_write free content walked
    simp only [Workspace.write] at again ⊢
    rw [again]
    exact arrived

/-! ### Opening -/

/-- A row of names opens for reading where it leads to a file. -/
theorem openForReading_eq_ok :
    workspace.openForReading row = .ok path ↔
      ∃ directory name, workspace.destination row = .ok ⟨directory, some name, false⟩ ∧
        name.length ≤ longestName ∧ path = child directory name ∧
        ∃ content, workspace.lookup path = some (.file content) := by
  unfold openForReading
  constructor
  · intro opened
    split at opened
    · cases opened
    · cases opened
    · rename_i directory name slashFollows arrived
      split at opened
      · cases opened
      · rename_i short
        split at opened
        · cases opened
        · cases opened
        · rename_i content standing
          cases slashFollows with
          | true => cases opened
          | false =>
              cases opened
              exact ⟨directory, name, arrived, Nat.le_of_not_lt short, rfl, content, standing⟩
  · rintro ⟨directory, name, arrived, short, rfl, content, standing⟩
    rw [arrived]
    simp only [if_neg (Nat.not_lt.mpr short), standing]
    rfl

/-- A row of names opens for writing where it leads to a free place. -/
theorem openForWriting_eq_ok :
    workspace.openForWriting row = .ok path ↔
      ∃ directory name, workspace.destination row = .ok ⟨directory, some name, false⟩ ∧
        name ≠ here ∧ name ≠ above ∧ name.length ≤ longestName ∧ path = child directory name ∧
        workspace.Free path := by
  unfold openForWriting Free
  constructor
  · intro opened
    split at opened
    · cases opened
    · cases opened
    · rename_i directory name slashFollows arrived
      split at opened
      · cases opened
      · rename_i named
        simp only [Bool.or_eq_true, decide_eq_true_eq, not_or, Bool.not_eq_true] at named
        obtain ⟨⟨rfl, beside⟩, below⟩ := named
        split at opened
        · cases opened
        · rename_i short
          split at opened
          · cases opened
          all_goals
            rename_i standing
            cases opened
            refine ⟨directory, name, arrived, beside, below, Nat.le_of_not_lt short, rfl, ?_⟩
            rw [standing]
            simp
  · rintro ⟨directory, name, arrived, beside, below, short, rfl, free⟩
    rw [arrived]
    simp only [Bool.false_or, beside, below, decide_false, Bool.false_eq_true, if_false,
      if_neg (Nat.not_lt.mpr short)]
    cases standing : workspace.lookup (child directory name) with
    | none => rfl
    | some entry =>
        cases entry with
        | file _ => rfl
        | directory => exact absurd standing free

/-- What opened for reading opens again after a write. -/
theorem openForReading_write (free : workspace.Free other) (content : Bytes)
    (opened : workspace.openForReading row = .ok path) :
    (workspace.write other (.file content)).openForReading row = .ok path := by
  obtain ⟨directory, name, arrived, short, rfl, before, standing⟩ := openForReading_eq_ok.mp opened
  refine openForReading_eq_ok.mpr
    ⟨directory, name, destination_write free content arrived, short, rfl, ?_⟩
  by_cases same : child directory name = other
  · rw [same]
    exact ⟨content, lookup_write_self workspace _ free.ne_nil⟩
  · rw [lookup_write_of_ne workspace _ same]
    exact ⟨before, standing⟩

/-- What opened for writing opens again after a write. -/
theorem openForWriting_write (free : workspace.Free other) (content : Bytes)
    (opened : workspace.openForWriting row = .ok path) :
    (workspace.write other (.file content)).openForWriting row = .ok path := by
  obtain ⟨directory, name, arrived, beside, below, short, rfl, free_path⟩ :=
    openForWriting_eq_ok.mp opened
  exact openForWriting_eq_ok.mpr ⟨directory, name, destination_write free content arrived, beside,
    below, short, rfl, free.write free_path content⟩

/-- What was opened for writing, and written, opens for reading. -/
theorem openForReading_written (opened : workspace.openForWriting row = .ok path)
    (content : Bytes) :
    (workspace.write path (.file content)).openForReading row = .ok path := by
  obtain ⟨directory, name, arrived, -, -, short, rfl, free⟩ := openForWriting_eq_ok.mp opened
  exact openForReading_eq_ok.mpr ⟨directory, name, destination_write free content arrived, short,
    rfl, content, lookup_write_self workspace _ free.ne_nil⟩

end Workspace

/-! ### Endpoints -/

section Endpoints

variable {workspace emptied : Workspace} {name : Text} {path target : Path}

@[simp] theorem Endpoint.content_file (standardInput : Bytes) :
    (Endpoint.file path).content workspace standardInput = workspace.content path := rfl

/-- A name opens to a file if it is not that of a standard stream and its bytes lead there. -/
theorem openEndpoint_eq_file {openRow : Bytes → Except SystemError Path} :
    openEndpoint openRow name = .ok (.file path) ↔
      name ≠ hyphen ∧ ∃ row, nameBytes name = .ok row ∧ openRow row = .ok path := by
  unfold openEndpoint
  by_cases standard : name = hyphen
  · rw [if_pos standard]
    exact ⟨(fun opened => nomatch opened), fun opened => absurd standard opened.1⟩
  · rw [if_neg standard]
    constructor
    · intro opened
      cases named : nameBytes name with
      | error error =>
          rw [named] at opened
          cases opened
      | ok row =>
          rw [named] at opened
          simp only at opened
          cases reached : openRow row with
          | error error =>
              rw [reached] at opened
              cases opened
          | ok place =>
              rw [reached] at opened
              cases opened
              exact ⟨standard, row, rfl, reached⟩
    · rintro ⟨-, row, named, reached⟩
      rw [named]
      simp only [reached]

/-- An output opens to a file if its name does, and the file is emptied. -/
theorem openOutput_eq_file :
    openOutput workspace (.given name) = .ok (.file path, emptied) ↔
      openEndpoint workspace.openForWriting name = .ok (.file path) ∧
        emptied = workspace.write path (.file []) := by
  unfold openOutput
  simp only
  cases opened : openEndpoint workspace.openForWriting name with
  | error error => exact ⟨(fun opened => nomatch opened), fun opened => nomatch opened.1⟩
  | ok endpoint =>
      cases endpoint with
      | standard => exact ⟨(fun opened => nomatch opened), fun opened => nomatch opened.1⟩
      | file place =>
          constructor
          · intro same
            cases same
            exact ⟨rfl, rfl⟩
          · rintro ⟨same, rfl⟩
            cases same
            rfl

theorem free_of_openForWriting
    (opened : openEndpoint workspace.openForWriting name = .ok (.file path)) :
    workspace.Free path := by
  obtain ⟨-, row, -, reached⟩ := openEndpoint_eq_file.mp opened
  obtain ⟨_, _, -, -, -, -, -, free⟩ := Workspace.openForWriting_eq_ok.mp reached
  exact free

/-- An input that opened opens again after a write. -/
theorem openInput_write (free : workspace.Free target) (content : Bytes)
    (opened : openInput workspace name = .ok (.file path)) :
    openInput (workspace.write target (.file content)) name = .ok (.file path) := by
  obtain ⟨proper, row, named, reached⟩ := openEndpoint_eq_file.mp opened
  exact openEndpoint_eq_file.mpr
    ⟨proper, row, named, Workspace.openForReading_write free content reached⟩

/-- An output that was written opens as an input. -/
theorem openInput_written (opened : openEndpoint workspace.openForWriting name = .ok (.file path))
    (content : Bytes) :
    openInput (workspace.write path (.file content)) name = .ok (.file path) := by
  obtain ⟨proper, row, named, reached⟩ := openEndpoint_eq_file.mp opened
  exact openEndpoint_eq_file.mpr
    ⟨proper, row, named, Workspace.openForReading_written reached content⟩

/-- An output that was written opens as an output again. -/
theorem openOutput_written (opened : openEndpoint workspace.openForWriting name = .ok (.file path))
    (content : Bytes) :
    openEndpoint (workspace.write path (.file content)).openForWriting name = .ok (.file path) := by
  have free := free_of_openForWriting opened
  obtain ⟨proper, row, named, reached⟩ := openEndpoint_eq_file.mp opened
  exact openEndpoint_eq_file.mpr
    ⟨proper, row, named, Workspace.openForWriting_write free content reached⟩

end Endpoints

end Reindent
