import GcodeLink.Homing
import GcodeLink.Note.Basic

/-!
# Notes on homing moves

A homing move leaves a note of the target that it is queued with.
-/

namespace GcodeLink.MoveQueue

/-- The note on queueing a homing move. -/
def homeNotes (queue : MoveQueue) (move : HomingMove) : List Note :=
  [.homing (move.targetFrom queue.startpoint)]

end GcodeLink.MoveQueue
