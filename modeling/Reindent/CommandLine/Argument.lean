import Reindent.CommandLine.Switch
import Reindent.Text.DecimalDigit

/-!
Arguments one by one.

Before the mark `--` every argument is sorted by itself.  One that starts with a hyphen is a switch
if it spells one: in full, cut short as long as one spelling fits, or with a value attached.  A lone
hyphen, a negative number and a text with a space are operands all the same, unless they spell a
switch.  After the mark all arguments are operands.
-/

namespace Reindent

/-- What is wrong with a command line. -/
inductive UsageError where
  /-- An abbreviation fits several spellings. -/
  | ambiguous (argument : Text) (spellings : List Text)
  /-- A value is attached to a switch that takes none. -/
  | ignoredValue (switch : Switch) (value : Text)
  /-- A switch lacks its value. -/
  | missingValue (switch : Switch)
  /-- Arguments of no use. -/
  | unrecognized (arguments : List Text)
  /-- Two switches that exclude each other. -/
  | tabsAndIndent
  /-- A check of the content needs a unit that adds none. -/
  | unitNotBlank
deriving DecidableEq

/-- A usage error as a message words it. -/
def UsageError.message : UsageError → Text
  | .ambiguous argument spellings =>
      Text.ofString "ambiguous option: " ++ argument ++ Text.ofString " could match " ++
        (spellings.intersperse (Text.ofString ", ")).flatten
  | .ignoredValue switch value =>
      Text.ofString "argument " ++ switch.title ++ Text.ofString ": ignored explicit argument " ++
        value.quoted
  | .missingValue switch =>
      Text.ofString "argument " ++ switch.title ++ Text.ofString ": expected one argument"
  | .unrecognized arguments =>
      Text.ofString "unrecognized arguments: " ++ (arguments.intersperse (Text.ofString " ")).flatten
  | .tabsAndIndent => "--indent and --tabs are mutually exclusive"
  | .unitNotBlank => "--verify needs a whitespace indentation unit"

/-- An argument that is a switch: the spelling it stands for, and the value attached to it. -/
structure SwitchUse where
  spelling : Text
  switch : Switch
  attached : Option Text
deriving DecidableEq

/-- An argument by itself. -/
inductive Argument where
  /-- An operand, or a value. -/
  | plain (text : Text)
  /-- The mark after which all arguments are plain. -/
  | endMark
  | switch (found : SwitchUse)
  /-- Something in the form of a switch that is none. -/
  | unknown (text : Text)
deriving DecidableEq

/-- The mark after which all arguments are plain. -/
def endMarkText : Text := [.ofChar '-', .ofChar '-']

namespace Argument

/-- Cut a text at its first equals sign, if it has one. -/
def cutAtEquals (text : Text) : Text × Option Text :=
  match text.dropWhile (fun c => c ≠ .ofChar '=') with
  | [] => (text, none)
  | _ :: value => (text.takeWhile (fun c => c ≠ .ofChar '='), some value)

/-- A switch spelled in full before an equals sign. -/
def withEquals? (text : Text) : Option SwitchUse :=
  match cutAtEquals text with
  | (_, none) => none
  | (front, some value) =>
      (Switch.ofSpelling? front).map fun known => ⟨front, known, some value⟩

/-- The ways to read an argument that spells no switch in full.  A long one may be cut short, and
what follows an equals sign is its value; after a short one the value follows at once. -/
def readings (text : Text) : List SwitchUse :=
  if (text.drop 1).head? = some (.ofChar '-') then
    let (front, value) := cutAtEquals text
    (Switch.table.filter fun entry => front.isPrefixOf entry.1).map fun entry =>
      ⟨entry.1, entry.2, value⟩
  else
    Switch.table.filterMap fun entry =>
      if entry.1 = text.take 2 then some ⟨entry.1, entry.2, some (text.drop 2)⟩
      else if text.isPrefixOf entry.1 then some ⟨entry.1, entry.2, none⟩
      else none

/-- Whether a text is a non-empty row of decimal digits. -/
def isDigits (text : Text) : Bool := !text.isEmpty && text.all CodePoint.isDecimalDigit

/-- Whether a text that starts with a minus sign is a negative number: an integer, or a decimal
fraction with digits after its point.  A newline at its end does not count. -/
def isNegativeNumber (text : Text) : Bool :=
  let body := text.drop 1
  let body := if body.getLast? = some (.ofChar '\n') then body.dropLast else body
  isDigits body ||
    match body.dropWhile CodePoint.isDecimalDigit with
    | [] => false
    | point :: fraction => point == .ofChar '.' && isDigits fraction

/-- Sort an argument that comes before the mark. -/
def ofText (text : Text) : Except UsageError Argument :=
  if text.head? ≠ some (.ofChar '-') then
    .ok (.plain text)
  else
    match Switch.ofSpelling? text with
    | some known => .ok (.switch ⟨text, known, none⟩)
    | none =>
        if text.length = 1 then
          .ok (.plain text)
        else
          match withEquals? text with
          | some found => .ok (.switch found)
          | none =>
              match readings text with
              | [found] => .ok (.switch found)
              | first :: second :: others =>
                  .error (.ambiguous text ((first :: second :: others).map SwitchUse.spelling))
              | [] =>
                  if isNegativeNumber text || text.contains (.ofChar ' ') then .ok (.plain text)
                  else .ok (.unknown text)

/-- Sort all arguments. -/
def ofTexts : List Text → Except UsageError (List Argument)
  | [] => .ok []
  | text :: rest =>
      if text = endMarkText then
        .ok (.endMark :: rest.map .plain)
      else
        match ofText text with
        | .error error => .error error
        | .ok argument =>
            match ofTexts rest with
            | .error error => .error error
            | .ok arguments => .ok (argument :: arguments)

end Argument

end Reindent
