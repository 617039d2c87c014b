import GcodeLink.Target

/-!
# Homing moves

The machine builds moves of its own, such as the steps of a homing sequence.  A
homing move names some axes; every other axis stays where the previous move
ends.  Moves are queued, and each one starts from the end of the last.
-/

namespace GcodeLink

/-- A move along some of the axes. -/
structure HomingMove where
  steps : PerAxis (Option Int32)
  feed : UInt32
  deriving DecidableEq, Repr

namespace HomingMove

/-- A move that names no axis yet. -/
def atFeed (feed : UInt32) : HomingMove :=
  { steps := .fill none, feed }

/-- Name the coordinate that the move reaches along one axis. -/
def along (move : HomingMove) (axis : Axis) (steps : Int32) : HomingMove :=
  { move with steps := move.steps.set axis (some steps) }

/-- The move of a list of axes and coordinates, named in order. -/
def ofAxes (feed : UInt32) (axes : List (Axis × Int32)) : HomingMove :=
  axes.foldl (fun move named => move.along named.1 named.2) (.atFeed feed)

/-- The coordinate that the move reaches along one axis from a start. -/
def coordinate (move : HomingMove) (start : Target) (axis : Axis) : Int32 :=
  (move.steps.get axis).getD (start.position.get axis)

/-- The target that the move reaches from a start. -/
def targetFrom (move : HomingMove) (start : Target) : Target :=
  { position :=
      { x := move.coordinate start .x
        y := move.coordinate start .y
        z := move.coordinate start .z
        e := move.coordinate start .e }
    feed := move.feed
    origin := .homing }

@[simp]
theorem get_position_targetFrom (move : HomingMove) (start : Target) (axis : Axis) :
    (move.targetFrom start).position.get axis = move.coordinate start axis := by
  cases axis <;> rfl

@[simp]
theorem feed_targetFrom (move : HomingMove) (start : Target) :
    (move.targetFrom start).feed = move.feed := rfl

@[simp]
theorem origin_targetFrom (move : HomingMove) (start : Target) :
    (move.targetFrom start).origin = .homing := rfl

end HomingMove

/-- The moves that wait for the planner, and the position before the first of them. -/
structure MoveQueue where
  start : Target
  queued : List Target
  deriving DecidableEq, Repr

namespace MoveQueue

/-- A queue without moves. -/
def startingAt (start : Target) : MoveQueue :=
  { start, queued := [] }

/-- The position at which the last queued move ends. -/
def startpoint (queue : MoveQueue) : Target :=
  queue.queued.getLast?.getD queue.start

/-- Queue a target as it is. -/
def enqueue (queue : MoveQueue) (target : Target) : MoveQueue :=
  { queue with queued := queue.queued ++ [target] }

/-- Queue a homing move from where the last move ends. -/
def home (queue : MoveQueue) (move : HomingMove) : MoveQueue :=
  queue.enqueue (move.targetFrom queue.startpoint)

/-- Queue a homing move in the plane. -/
def homeXY (queue : MoveQueue) (x y : Int32) (feed : UInt32) : MoveQueue :=
  queue.home (((HomingMove.atFeed feed).along .x x).along .y y)

/-- Queue a homing move along the vertical axis. -/
def homeZ (queue : MoveQueue) (z : Int32) (feed : UInt32) : MoveQueue :=
  queue.home ((HomingMove.atFeed feed).along .z z)

/-- Queue a move of the filament. -/
def homeE (queue : MoveQueue) (e : Int32) (feed : UInt32) : MoveQueue :=
  queue.home ((HomingMove.atFeed feed).along .e e)

@[simp]
theorem startpoint_enqueue (queue : MoveQueue) (target : Target) :
    (queue.enqueue target).startpoint = target := by
  simp [startpoint, enqueue]

@[simp]
theorem queued_enqueue (queue : MoveQueue) (target : Target) :
    (queue.enqueue target).queued = queue.queued ++ [target] := rfl

end MoveQueue

end GcodeLink
