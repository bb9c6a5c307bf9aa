import Reindent.Text.Quoted

/-!
The switches of the command line, their spellings, and the texts that explain them.

A switch has a long spelling, and most have a short one of a single letter.  Spellings are listed
in the order of the help text, since messages about ambiguous spellings keep that order.
-/

namespace Reindent

/-- The switches of the command line. -/
inductive Switch where
  | help
  | output
  | indent
  | tabs
  | check
  | verify
  | verbose
  | version
deriving DecidableEq

namespace Switch

/-- All switches, in the order of the help text. -/
def all : List Switch := [help, output, indent, tabs, check, verify, verbose, version]

/-- The letter of the short spelling, if there is one. -/
def letter? : Switch → Option Char
  | help => some 'h'
  | output => some 'o'
  | indent => some 'i'
  | tabs => some 't'
  | check => some 'c'
  | verify => none
  | verbose => some 'v'
  | version => none

/-- The word of the long spelling. -/
def word : Switch → String
  | help => "help"
  | output => "output"
  | indent => "indent"
  | tabs => "tabs"
  | check => "check"
  | verify => "verify"
  | verbose => "verbose"
  | version => "version"

/-- Whether a switch needs a value. -/
def takesValue : Switch → Bool
  | output | indent => true
  | help | tabs | check | verify | verbose | version => false

/-- The spellings of a switch, the short one first. -/
def spellings (switch : Switch) : List Text :=
  (match switch.letter? with
    | some letter => [Text.ofString "-" ++ [.ofChar letter]]
    | none => []) ++
    [Text.ofString "--" ++ Text.ofString switch.word]

/-- All spellings with their switches. -/
def table : List (Text × Switch) :=
  all.flatMap fun switch => switch.spellings.map fun spelling => (spelling, switch)

/-- The switch that a text spells in full. -/
def ofSpelling? (text : Text) : Option Switch :=
  (table.find? fun entry => entry.1 = text).map Prod.snd

/-- The switch with a given letter. -/
def ofLetter? (letter : CodePoint) : Option Switch :=
  ofSpelling? [.ofChar '-', letter]

/-- How messages name a switch. -/
def title (switch : Switch) : Text :=
  (switch.spellings.intersperse (Text.ofString "/")).flatten

/-- No two switches share a spelling. -/
theorem table_spellings_nodup : (table.map Prod.fst).Nodup := by decide +kernel

end Switch

/-- The lines that sum up the command line. -/
def usageLines : List String := [
  "usage: nufmt [-h] [-o OUTPUT] [-i INDENT] [-t] [-c] [--verify] [-v]",
  "             [--version]",
  "             [filename]"]

/-- The lines that explain the command line. -/
def helpLines : List String := usageLines ++ [
  "",
  "Re-indent nu source around brackets, braces, colons and commas.",
  "",
  "positional arguments:",
  "  filename              Input file; use '-' to read from stdin.",
  "",
  "options:",
  "  -h, --help            show this help message and exit",
  "  -o OUTPUT, --output OUTPUT",
  "                        Output file; defaults to stdout",
  "  -i INDENT, --indent INDENT",
  "                        Indentation unit, backslash escapes allowed; defaults",
  "                        to two spaces",
  "  -t, --tabs            Indent with one tab per level",
  "  -c, --check           Don't write anything; fail if the input isn't",
  "                        formatted already",
  "  --verify              Refuse to write output if formatting changed more than",
  "                        whitespace",
  "  -v, --verbose         Verbose output",
  "  --version             Display version and exit"]

/-- Lines as a text, each with its newline. -/
def textOfLines (lines : List String) : Text :=
  lines.flatMap fun line => Text.ofString line ++ [.ofChar '\n']

/-- The summary of the command line. -/
def usageText : Text := textOfLines usageLines

/-- The explanation of the command line. -/
def helpText : Text := textOfLines helpLines

end Reindent
