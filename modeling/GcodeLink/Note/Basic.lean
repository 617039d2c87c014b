import GcodeLink.Field
import GcodeLink.Literal.Basic
import GcodeLink.Fault
import GcodeLink.Line
import GcodeLink.Machine
import GcodeLink.Target

/-!
# Diagnostic notes

While it works the link leaves notes for whoever runs the machine.  A note is a
fact about one byte or one line; its level says how much it matters, and its
text is fixed.  Notes are told apart from what the link does: they are computed
from the states that it passes through, and no state depends on them.

In texts, a record is written as its name and its fields in braces, an optional
value as `Some(...)` or `None`.
-/

namespace GcodeLink

/-- How much a note matters. -/
inductive Level where
  | trace
  | debug
  | warn
  deriving DecidableEq, Repr

/-- A fact worth noting. -/
inductive Note where
  /-- A field took effect with this literal. -/
  | stored (field : Field) (value : Literal)
  /-- A field was dropped. -/
  | dropped (field : Field) (fault : Fault)
  /-- A line was accepted with these codes and this target. -/
  | accepted (g : Option UInt8) (m : Option UInt16) (target : Target)
  /-- A line was rejected. -/
  | rejected (fault : Fault)
  /-- A byte of a filename did not fit. -/
  | filenameTruncated
  /-- A line that is too long is discarded from here on. -/
  | lineDiscarded
  /-- A line was refused for a fault that no line is rejected for. -/
  | unexpectedFault (fault : Fault)
  /-- A file was not created for want of a complete name. -/
  | nameRefused
  /-- Lines are stored from now on. -/
  | captureStarted
  /-- A file could not be created. -/
  | createFailed (failure : StorageFailure)
  /-- The file is complete. -/
  | captureDone
  /-- The end of a file could not be stored. -/
  | closeFailed (failure : StorageFailure)
  /-- A line could not be stored. -/
  | writeFailed (failure : StorageFailure)
  /-- A homing move was queued. -/
  | homing (target : Target)
  deriving DecidableEq, Repr

namespace Note

/-- Write a record as its name and its fields. -/
def recordText (name : String) (fields : List (String × String)) : String :=
  name ++ " \x7b " ++
    String.intercalate ", " (fields.map fun field => field.1 ++ ": " ++ field.2) ++ " \x7d"

/-- Write an optional number. -/
def optionText : Option Nat → String
  | none => "None"
  | some number => "Some(" ++ toString number ++ ")"

/-- Write a truth value. -/
def boolText (value : Bool) : String :=
  if value then "true" else "false"

/-- Write an axis. -/
def axisText : Axis → String
  | .x => "X"
  | .y => "Y"
  | .z => "Z"
  | .e => "E"

/-- Write a field. -/
def fieldText : Field → String
  | .g => "G"
  | .m => "M"
  | .axis axis => "Axis(" ++ axisText axis ++ ")"
  | .feed => "F"
  | .s => "S"
  | .p => "P"
  | .lineNumber => "N"
  | .checksum => "Checksum"
  | .unknown letter => "Unknown(" ++ toString letter.toNat ++ ")"

/-- Write a literal. -/
def literalText (value : Literal) : String :=
  recordText "DecimalValue"
    [("sign", boolText value.negative),
      ("mantissa", toString value.mantissa.toNat),
      ("decimal_digits", toString value.placesByte.toNat),
      ("overflowed", boolText value.overflowed)]

/-- Write where a move comes from. -/
def originText : MoveOrigin → String
  | .parsed => "Parsed"
  | .homing => "Homing"

/-- Write a target. -/
def targetText (target : Target) : String :=
  recordText "Target"
    [("x", toString target.position.x.toInt),
      ("y", toString target.position.y.toInt),
      ("z", toString target.position.z.toInt),
      ("e", toString target.position.e.toInt),
      ("f", toString target.feed.toNat),
      ("kind", originText target.origin)]

/-- Write the reason of a failure in quotes. -/
def failureText (failure : StorageFailure) : String :=
  "\"" ++ failure.reason ++ "\""

/-- The level of a note. -/
def level : Note → Level
  | stored _ _ => .trace
  | accepted _ _ _ | captureStarted | captureDone | homing _ => .debug
  | _ => .warn

/-- The text of a note. -/
def text : Note → String
  | stored field value => fieldText field ++ " <- " ++ literalText value
  | dropped field fault => "dropping field " ++ fieldText field ++ ": " ++ fault.message
  | accepted g m target =>
      "line accepted: G" ++ optionText (g.map (·.toNat)) ++ " M" ++
        optionText (m.map (·.toNat)) ++ " " ++ targetText target
  | rejected fault => "line rejected: " ++ fault.message
  | filenameTruncated =>
      Fault.filenameTruncated.message ++ " after " ++ toString lineCapacity ++ " bytes"
  | lineDiscarded =>
      "line longer than " ++ toString (lineCapacity - 1) ++ " bytes, discarding it"
  | unexpectedFault fault => "unexpected line verdict: " ++ fault.message
  | nameRefused => "refusing to open file: " ++ Fault.filenameTruncated.message
  | captureStarted => "capturing lines to file"
  | createFailed failure => "cannot open file: " ++ failureText failure
  | captureDone => "file capture done"
  | closeFailed failure => "closing file: " ++ failureText failure
  | writeFailed failure => "writing to file: " ++ failureText failure
  | homing target => "synthetic move to " ++ targetText target

/-- The notes left along a run of steps, given those left by each step. -/
def trail {State Input : Type} (step : State → Input → State)
    (notes : State → Input → List Note) : State → List Input → List Note
  | _, [] => []
  | state, input :: rest => notes state input ++ trail step notes (step state input) rest

end Note

end GcodeLink
