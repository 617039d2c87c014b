import GcodeLink.Framer

/-!
# The segments of a stream

A stream is cut into segments at every terminator and at every end of the input.
What a reader of lines is owed depends on each segment alone: nothing for an
empty one, its bytes with a terminator for one that fits, and a report that it
was too long for any other.  An end of the input that closes an empty segment is
reported as such, and a pause is passed on.
-/

namespace GcodeLink

/-- What a reader of lines learns from one answer. -/
inductive Report where
  | pending
  /-- The bytes of a line with its terminator. -/
  | line (bytes : List UInt8)
  | tooLong
  | ended
  deriving DecidableEq, Repr

/-- What a reader learns from an answer of the framer. -/
def Poll.report : Poll → Report
  | .pending => .pending
  | .line framed => .line framed.bytes
  | .tooLong => .tooLong
  | .ended => .ended

namespace Segment

/-- What is owed for a segment of these bytes that a terminator closes. -/
def closedBy (terminator : UInt8) (bytes : List UInt8) : Option Report :=
  if bytes.isEmpty then none
  else if bytes.length ≤ Framer.longestLine then some (.line (bytes ++ [terminator]))
  else some .tooLong

/-- What is owed for a segment of these bytes that the end of the input closes. -/
def closedByEnd (bytes : List UInt8) : Report :=
  (closedBy Byte.lineFeed bytes).getD .ended

/-- What is owed for a stream, after the given bytes of its first segment. -/
def reports : List UInt8 → List Signal → List Report
  | _, [] => []
  | bytes, .pending :: rest => .pending :: reports bytes rest
  | bytes, .ended :: rest => closedByEnd bytes :: reports [] rest
  | bytes, .byte byte :: rest =>
      if Byte.isTerminator byte then
        (closedBy byte bytes).toList ++ reports [] rest
      else
        reports (bytes ++ [byte]) rest

end Segment

end GcodeLink
