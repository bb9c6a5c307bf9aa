import Reindent.Text.Quoted
import Reindent.Text.Utf8

/-!
Files and directories, and how names lead to them.

A workspace is a tree of files and directories together with the directory that relative names
start from.  A place in the tree is a path: the list of names that leads there from the root, which
is the empty path and always a directory.

Opening a name walks along it from the root or from the working directory.  Every name but the last
must lead to a directory.  The last one must be a file for reading; for writing it may also be
missing, and is then created.  Main statement: writing changes the one place it writes to
(`lookup_write_of_ne`).
-/

namespace Reindent

/-- The names that lead to a place from the root. -/
abbrev Path := List Bytes

/-- What can stand at a place. -/
inductive Entry where
  | file (content : Bytes)
  | directory
deriving DecidableEq

/-- A tree of files and directories, and the directory that relative names start from. -/
structure Workspace where
  directory : Path := []
  entries : List (Path × Entry) := []
deriving DecidableEq

/-- Why the system does not open a name. -/
inductive SystemError where
  | notFound
  | notDirectory
  | isDirectory
  | nameTooLong
deriving DecidableEq

/-- The number of a system error. -/
def SystemError.number : SystemError → Nat
  | notFound => 2
  | notDirectory => 20
  | isDirectory => 21
  | nameTooLong => 36

/-- The wording of a system error. -/
def SystemError.wording : SystemError → String
  | notFound => "No such file or directory"
  | notDirectory => "Not a directory"
  | isDirectory => "Is a directory"
  | nameTooLong => "File name too long"

/-- A system error about a name, as a message words it. -/
def SystemError.message (error : SystemError) (name : Text) : Text :=
  Text.ofString "[Errno " ++ Text.ofNat error.number ++ Text.ofString "] " ++
    Text.ofString error.wording ++ Text.ofString ": " ++ name.quoted

/-- Why a text is not even the name of a place. -/
inductive NameError where
  /-- It holds surrogates that stand for no byte. -/
  | unencodable (run : SurrogateRun)
  /-- It holds a null byte. -/
  | null
deriving DecidableEq

/-- What a text that is no name reports. -/
def NameError.message : NameError → Text
  | .unencodable run => run.message
  | .null => "embedded null byte"

/-- The bytes of a name. -/
def nameBytes (name : Text) : Except NameError Bytes :=
  match Utf8.encodeEscaped name with
  | .error run => .error (.unencodable run)
  | .ok bytes => if bytes.contains 0 then .error .null else .ok bytes

namespace Workspace

/-- The byte that separates names. -/
def slash : UInt8 := 0x2F

/-- The name of the directory that holds it. -/
def here : Bytes := [0x2E]

/-- The name of the directory above. -/
def above : Bytes := [0x2E, 0x2E]

/-- The longest name of one place, in bytes. -/
def longestName : Nat := 255

/-- The shortest row of names that is too long, in bytes. -/
def tooLongRow : Nat := 4096

/-- What stands at a place. -/
def lookup (workspace : Workspace) (path : Path) : Option Entry :=
  if path = [] then some .directory
  else (workspace.entries.find? fun entry => entry.1 = path).map Prod.snd

/-- Put an entry at a place, in the place of what stands there. -/
def write (workspace : Workspace) (path : Path) (entry : Entry) : Workspace :=
  { workspace with
    entries := (path, entry) :: workspace.entries.filter fun other => other.1 ≠ path }

/-- The content of the file at a place; no file has no content. -/
def content (workspace : Workspace) (path : Path) : Bytes :=
  match workspace.lookup path with
  | some (.file content) => content
  | _ => []

/-- Cut a row of names at its slashes. -/
def components : Bytes → List Bytes
  | [] => [[]]
  | byte :: rest =>
      match components rest with
      | [] => [[byte]]
      | first :: others =>
          if byte = slash then [] :: first :: others else (byte :: first) :: others

/-- The place that a name leads to from a directory. -/
def child (directory : Path) (name : Bytes) : Path :=
  if name = here then directory
  else if name = above then directory.dropLast
  else directory ++ [name]

/-- Walk along names that must lead to directories. -/
def walk (workspace : Workspace) (directory : Path) : List Bytes → Except SystemError Path
  | [] => .ok directory
  | name :: rest =>
      if longestName < name.length then
        .error .nameTooLong
      else
        match workspace.lookup (child directory name) with
        | none => .error .notFound
        | some (.file _) => .error .notDirectory
        | some .directory => workspace.walk (child directory name) rest

/-- Where a row of names leads: the directory before the last name, the last name if there is one,
and whether a slash follows it. -/
structure Destination where
  directory : Path
  name : Option Bytes
  slashFollows : Bool

/-- Walk along a row of names up to its last one. -/
def destination (workspace : Workspace) (row : Bytes) : Except SystemError Destination :=
  if row.isEmpty then
    .error .notFound
  else if tooLongRow ≤ row.length then
    .error .nameTooLong
  else
    let start := if row.head? = some slash then [] else workspace.directory
    let names := (components row).filter fun name => !name.isEmpty
    match workspace.walk start names.dropLast with
    | .error error => .error error
    | .ok directory => .ok ⟨directory, names.getLast?, row.getLast? == some slash⟩

/-- Open a row of names for reading: the place of the file. -/
def openForReading (workspace : Workspace) (row : Bytes) : Except SystemError Path :=
  match workspace.destination row with
  | .error error => .error error
  | .ok ⟨_, none, _⟩ => .error .isDirectory
  | .ok ⟨directory, some name, slashFollows⟩ =>
      if longestName < name.length then
        .error .nameTooLong
      else
        match workspace.lookup (child directory name) with
        | none => .error .notFound
        | some .directory => .error .isDirectory
        | some (.file _) =>
            if slashFollows then .error .notDirectory else .ok (child directory name)

/-- Open a row of names for writing: the place of the file, which may be missing as yet. -/
def openForWriting (workspace : Workspace) (row : Bytes) : Except SystemError Path :=
  match workspace.destination row with
  | .error error => .error error
  | .ok ⟨_, none, _⟩ => .error .isDirectory
  | .ok ⟨directory, some name, slashFollows⟩ =>
      if slashFollows || name = here || name = above then
        .error .isDirectory
      else if longestName < name.length then
        .error .nameTooLong
      else
        match workspace.lookup (child directory name) with
        | some .directory => .error .isDirectory
        | some (.file _) | none => .ok (child directory name)

/-- Writing puts the entry where it should stand. -/
theorem lookup_write_self (workspace : Workspace) {path : Path} (entry : Entry)
    (inside : path ≠ []) : (workspace.write path entry).lookup path = some entry := by
  simp [lookup, write, inside]

/-- Writing changes nothing elsewhere. -/
theorem lookup_write_of_ne (workspace : Workspace) {path other : Path} (entry : Entry)
    (elsewhere : other ≠ path) :
    (workspace.write path entry).lookup other = workspace.lookup other := by
  simp only [lookup, write]
  split
  · rfl
  · rw [List.find?_cons_of_neg (by simpa using Ne.symm elsewhere), List.find?_filter]
    congr 2
    funext candidate
    by_cases same : candidate.1 = other
    · simp [same, elsewhere]
    · simp [same]

/-- All places that a row of names passes, the last one included. -/
def places (workspace : Workspace) (row : Bytes) : List Path :=
  let start := if row.head? = some slash then [] else workspace.directory
  let names := (components row).filter fun name => !name.isEmpty
  (names.foldl (fun places name => child (places.headD []) name :: places) [start])

end Workspace

end Reindent
