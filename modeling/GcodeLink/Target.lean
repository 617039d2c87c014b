import GcodeLink.Axis

/-!
# Targets of moves

A target is a position in steps together with the feed rate of the move that
reaches it.  It records whether the move was read from a line or made up by the
machine for homing.
-/

namespace GcodeLink

/-- Where a move comes from. -/
inductive MoveOrigin where
  /-- Read from a line. -/
  | parsed
  /-- Built by the machine for a homing sequence. -/
  | homing
  deriving DecidableEq, Repr

/-- The end of a move, in steps, and its feed rate. -/
@[ext]
structure Target where
  position : PerAxis Int32
  feed : UInt32
  origin : MoveOrigin
  deriving DecidableEq, Repr

namespace Target

/-- The target before any move. -/
def zero : Target :=
  { position := .fill 0, feed := 0, origin := .parsed }

/-- Replace the coordinate of one axis. -/
def setAxis (target : Target) (axis : Axis) (steps : Int32) : Target :=
  { target with position := target.position.set axis steps }

/-- The target with every coordinate zero, which a displacement starts from. -/
def atOrigin (target : Target) : Target :=
  { target with position := .fill 0 }

end Target

end GcodeLink
