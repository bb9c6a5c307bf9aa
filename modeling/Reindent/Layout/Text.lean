import Reindent.Layout.Run

/-!
Reindenting a text in memory.

The text is encoded, its bytes are converted, and the result is decoded again.  The conversion is a
parameter: it is layout for `reindent`, and elsewhere it may be one that fails for reasons of a
device, which has no place in memory and is reported as a defect.
-/

namespace Reindent

/-- Why a conversion of bytes fails. -/
inductive ConversionError where
  | step (error : StepError)
  /-- A device failed, for a reason that it states. -/
  | device (reason : Text)
deriving DecidableEq

/-- Why a text cannot be converted. -/
inductive FormatError where
  /-- The text holds surrogates. -/
  | unencodable (run : SurrogateRun)
  /-- The conversion cannot take a step. -/
  | step (error : StepError)
  /-- A device failed, although memory needs none. -/
  | device (reason : Text)
  /-- The converted bytes are not a text. -/
  | undecodable (bytes : Bytes)
deriving DecidableEq

/-- What a failed conversion reports. -/
def FormatError.message : FormatError → Text
  | .unencodable run => run.message
  | .step error => error.message
  | .device reason => Text.ofString "Formatting in memory failed: " ++ reason
  | .undecodable _ => "the result is not a text"

/-- Convert a text by way of its bytes. -/
def throughBytes (convert : Bytes → Except ConversionError Bytes) (text : Text) :
    Except FormatError Text :=
  match Utf8.encode text with
  | .error run => .error (.unencodable run)
  | .ok bytes =>
      match convert bytes with
      | .error (.step error) => .error (.step error)
      | .error (.device reason) => .error (.device reason)
      | .ok converted =>
          match Utf8.decode? converted with
          | none => .error (.undecodable converted)
          | some result => .ok result

/-- Reindent a text. -/
def reindent (margin : Margin) : Text → Except FormatError Text :=
  throughBytes fun bytes =>
    match reindentBytes margin bytes with
    | .error error => .error (.step error)
    | .ok written => .ok written

end Reindent
