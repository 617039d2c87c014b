import GcodeLink.Buffer
import GcodeLink.Byte

/-!
# Lines

A line as it is received is held in one buffer, its terminator included.  A line
that goes to a file ends with a single line feed, whatever it ended with before.
-/

namespace GcodeLink

/-- The capacity of a line with its terminator, and of a filename. -/
def lineCapacity : Nat := 120

/-- One received line. -/
abbrev Line := Buffer lineCapacity

namespace Line

/-- End the line with a line feed, in place of a carriage return or of a byte too many. -/
def endWithLineFeed (line : Line) : Line :=
  match line.bytes.getLast? with
  | some last =>
      if last == Byte.lineFeed then
        line
      else if last == Byte.carriageReturn then
        line.setLast Byte.lineFeed
      else
        (line.push? Byte.lineFeed).getD (line.setLast Byte.lineFeed)
  | none => line.push Byte.lineFeed

/-- The number of bytes up to and including the first terminator, if there is one. -/
def terminatedLength? (line : Line) : Option Nat :=
  (line.bytes.findIdx? Byte.isTerminator).map (· + 1)

/--
The line up to its first terminator, or with a line feed appended if it has
none; `none` if there is no room for one.
-/
def close? (line : Line) : Option Line :=
  match line.terminatedLength? with
  | some count => some (line.truncate count)
  | none => line.push? Byte.lineFeed

end Line

end GcodeLink
