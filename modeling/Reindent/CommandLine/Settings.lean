import Reindent.CommandLine.Argument

/-!
From arguments to settings.

Sorted arguments are read from left to right.  A switch that needs a value takes the one attached to
it or the operand that follows; short switches may stand in a cluster behind one hyphen.  The first
operand that is left is the input's name, and later switches overrule earlier ones.  What has no use
is surplus, and is reported once all else is read.

The argument grammar is that of its releases up to 3.11.8.  They take a value `--` for the mark even
where it is attached to its switch, so that it is lost (`SwitchValue.ofText`), and they report what
follows a switch in a cluster and starts with no letter of a switch as an ignored value
(`Cluster.ofShort`).  Later releases keep such a value and call such a cluster unrecognized.
-/

namespace Reindent

/-- The value of a switch.  A value that is the mark itself is taken for the mark, and the switch
is then left without one. -/
inductive SwitchValue where
  | given (text : Text)
  | lost
deriving DecidableEq

/-- The value that a text gives to a switch. -/
def SwitchValue.ofText (text : Text) : SwitchValue :=
  if text = endMarkText then .lost else .given text

/-- What a command line asks for. -/
structure Settings where
  /-- The name of the input; a lone hyphen is the standard input. -/
  input : Text := "-"
  /-- The name of the output; a lone hyphen is the standard output. -/
  output : SwitchValue := .given "-"
  /-- The indentation unit, escapes and all. -/
  indent : Option SwitchValue := none
  tabs : Bool := false
  check : Bool := false
  verify : Bool := false
  verbose : Bool := false
  version : Bool := false
deriving DecidableEq

/-- Why a command line asks for nothing to be done. -/
inductive Refusal where
  /-- The explanation is asked for. -/
  | help
  | usage (error : UsageError)
deriving DecidableEq

/-- Settings in the making. -/
structure Reading where
  settings : Settings := {}
  /-- The input's name was given. -/
  named : Bool := false
  /-- Arguments of no use so far. -/
  surplus : List Text := []

namespace Reading

/-- Take note of a switch that needs no value. -/
def flag (reading : Reading) : Switch → Except Refusal Reading
  | .help => .error .help
  | .tabs => .ok { reading with settings := { reading.settings with tabs := true } }
  | .check => .ok { reading with settings := { reading.settings with check := true } }
  | .verify => .ok { reading with settings := { reading.settings with verify := true } }
  | .verbose => .ok { reading with settings := { reading.settings with verbose := true } }
  | .version => .ok { reading with settings := { reading.settings with version := true } }
  | .output | .indent => .ok reading

/-- Take note of switches that need no value, in a row. -/
def flags (reading : Reading) : List Switch → Except Refusal Reading
  | [] => .ok reading
  | first :: rest =>
      match reading.flag first with
      | .error refusal => .error refusal
      | .ok reading => reading.flags rest

/-- Take note of a switch with its value. -/
def value (reading : Reading) (switch : Switch) (text : Text) : Reading :=
  match switch with
  | .output => { reading with
      settings := { reading.settings with output := SwitchValue.ofText text } }
  | .indent => { reading with
      settings := { reading.settings with indent := some (SwitchValue.ofText text) } }
  | _ => reading

/-- Take note of the input's name. -/
def input (reading : Reading) (name : Text) : Reading :=
  { reading with settings := { reading.settings with input := name }, named := true }

/-- Take note of an argument of no use. -/
def useless (reading : Reading) (text : Text) : Reading :=
  { reading with surplus := reading.surplus ++ [text] }

end Reading

/-- A cluster of short switches, taken apart: switches that need no value, and the last one, which
may have one attached. -/
structure Cluster where
  flags : List Switch
  last : Switch
  attached : Option Text

namespace Cluster

/-- Take apart what is attached to a short switch.  A switch that takes a value takes all of it; any
other goes on with the switch of the next letter. -/
def ofShort (switch : Switch) : Text → Except UsageError Cluster
  | [] =>
      if switch.takesValue then .ok ⟨[], switch, some []⟩
      else .error (.ignoredValue switch [])
  | letter :: rest =>
      if switch.takesValue then
        .ok ⟨[], switch, some (letter :: rest)⟩
      else
        match Switch.ofLetter? letter with
        | none => .error (.ignoredValue switch (letter :: rest))
        | some next =>
            if rest.isEmpty then
              .ok ⟨[switch], next, none⟩
            else
              match ofShort next rest with
              | .error error => .error error
              | .ok cluster => .ok { cluster with flags := switch :: cluster.flags }

/-- Take a use of a switch apart.  Long spellings do not cluster. -/
def ofUse (found : SwitchUse) : Except UsageError Cluster :=
  match found.attached with
  | none => .ok ⟨[], found.switch, none⟩
  | some text =>
      if found.spelling.length = 2 then ofShort found.switch text
      else if found.switch.takesValue then .ok ⟨[], found.switch, some text⟩
      else .error (.ignoredValue found.switch text)

end Cluster

namespace Reading

/-- Read the arguments that remain. -/
def readFrom (reading : Reading) : List Argument → Except Refusal Reading
  | [] => .ok reading
  | .unknown text :: rest => (reading.useless text).readFrom rest
  | .endMark :: rest =>
      if reading.named then
        (reading.useless endMarkText).readFrom rest
      else
        match rest with
        | .plain name :: rest => (reading.input name).readFrom rest
        | rest => readFrom { reading with named := true } rest
  | .plain name :: rest =>
      if reading.named then
        (reading.useless name).readFrom rest
      else
        match rest with
        | .endMark :: rest => (reading.input name).readFrom rest
        | rest => (reading.input name).readFrom rest
  | .switch found :: rest =>
      match Cluster.ofUse found with
      | .error error => .error (.usage error)
      | .ok cluster =>
          if cluster.last.takesValue then
            match cluster.attached, rest with
            | some text, rest =>
                match reading.flags cluster.flags with
                | .error refusal => .error refusal
                | .ok reading => (reading.value cluster.last text).readFrom rest
            | none, .plain text :: rest =>
                match reading.flags cluster.flags with
                | .error refusal => .error refusal
                | .ok reading => (reading.value cluster.last text).readFrom rest
            | none, _ => .error (.usage (.missingValue cluster.last))
          else
            match reading.flags (cluster.flags ++ [cluster.last]) with
            | .error refusal => .error refusal
            | .ok reading => reading.readFrom rest

end Reading

/-- The settings that a command line asks for. -/
def Settings.ofArguments (texts : List Text) : Except Refusal Settings :=
  match Argument.ofTexts texts with
  | .error error => .error (.usage error)
  | .ok arguments =>
      match Reading.readFrom {} arguments with
      | .error refusal => .error refusal
      | .ok reading =>
          if reading.surplus.isEmpty then .ok reading.settings
          else .error (.usage (.unrecognized reading.surplus))

end Reindent
