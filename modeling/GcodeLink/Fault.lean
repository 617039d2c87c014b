/-!
# Faults and verdicts

A fault is a reason for which a number, a filename or a whole line is refused.
A verdict is the judgement passed on one complete line: it is accepted, or it is
rejected for one fault.
-/

namespace GcodeLink

/-- A reason to refuse a number, a filename or a line. -/
inductive Fault where
  /-- A numeric field does not fit its accumulator or its slot. -/
  | numberOverflow
  /-- The received checksum differs from the computed one, which is kept here. -/
  | badChecksum (computed : UInt8)
  /-- The line number is missing or out of sequence; the one awaited is kept here. -/
  | badLineNumber (expected : UInt32)
  /-- A filename is longer than its buffer. -/
  | filenameTruncated
  /-- A line does not fit its buffer and is discarded. -/
  | lineTooLong
  deriving DecidableEq, Repr

/-- The wording of a fault. -/
def Fault.message : Fault → String
  | .numberOverflow => "number overflow"
  | .badChecksum computed => "bad checksum, expected " ++ toString computed.toNat
  | .badLineNumber expected => "bad line number, expected " ++ toString expected.toNat
  | .filenameTruncated => "filename truncated"
  | .lineTooLong => "line too long"

/-- The judgement passed on one complete line. -/
inductive Verdict where
  | accepted
  | rejected (fault : Fault)
  deriving DecidableEq, Repr

namespace Verdict

/-- Whether the line may be acted upon. -/
def isAccepted : Verdict → Bool
  | accepted => true
  | rejected _ => false

end Verdict

end GcodeLink
