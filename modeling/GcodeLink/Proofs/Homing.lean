import Mathlib.Data.List.Basic
import Mathlib.Data.List.Induction
import GcodeLink.Homing

/-!
# Chains of homing moves

A homing move takes over every axis that it does not name from the move queued
before it, which may have taken it over in its turn.  So a coordinate can come
from far back.  It is always the one that was named last: by the move itself, or
else by the latest move before it that names the axis at all, or else it is the
coordinate at which the queue stood before the first of them.  The feed rate is
never taken over.
-/

namespace GcodeLink

namespace HomingMove

/-- The coordinate that is named last for an axis, if one is. -/
def lastNamed? (named : List (Axis × Int32)) (axis : Axis) : Option Int32 :=
  (named.reverse.find? (·.1 = axis)).map (·.2)

/-- Of the coordinates that a move names for an axis, the last one counts. -/
theorem get_steps_ofAxes
    (feed : UInt32) (named : List (Axis × Int32)) (axis : Axis) :
    (ofAxes feed named).steps.get axis = lastNamed? named axis := by
  induction named using List.reverseRecOn with
  | nil =>
      exact PerAxis.get_fill none axis
  | append_singleton named last ih =>
      have stepped :
          ofAxes feed (named ++ [last]) =
            (ofAxes feed named).along last.1 last.2 := by
        rw [ofAxes, List.foldl_concat]
        rfl
      rw [stepped, lastNamed?, List.reverse_concat]
      by_cases own : last.1 = axis
      · subst own
        rw [List.find?_cons_of_pos (by simp)]
        exact PerAxis.get_set_self _ last.1 (some last.2)
      · rw [List.find?_cons_of_neg (by simpa using own)]
        exact (PerAxis.get_set_of_ne _ (some last.2) (Ne.symm own)).trans ih

@[simp]
theorem feed_ofAxes (feed : UInt32) (named : List (Axis × Int32)) :
    (ofAxes feed named).feed = feed := by
  induction named using List.reverseRecOn with
  | nil =>
      rfl
  | append_singleton named last ih =>
      rw [ofAxes, List.foldl_concat]
      exact ih

end HomingMove

/-- The ways to ask for a homing move. -/
inductive HomingRequest where
  /-- Name axes one after the other, in any order and as often as need be. -/
  | axes (named : List (Axis × Int32)) (feed : UInt32)
  /-- Move in the plane. -/
  | plane (x y : Int32) (feed : UInt32)
  /-- Move along the vertical axis. -/
  | vertical (z : Int32) (feed : UInt32)
  /-- Move the filament. -/
  | filament (e : Int32) (feed : UInt32)
  deriving DecidableEq, Repr

namespace HomingRequest

/-- The coordinates that the move names, in order. -/
def named : HomingRequest → List (Axis × Int32)
  | axes named _ => named
  | plane x y _ => [(.x, x), (.y, y)]
  | vertical z _ => [(.z, z)]
  | filament e _ => [(.e, e)]

/-- The feed rate of the move. -/
def feed : HomingRequest → UInt32
  | axes _ feed | plane _ _ feed | vertical _ feed | filament _ feed => feed

/-- The coordinate that the move sets for an axis, if it names the axis. -/
def sets? (request : HomingRequest) (axis : Axis) : Option Int32 :=
  HomingMove.lastNamed? request.named axis

/--
The coordinate at which an axis stands after some moves: the one that the latest
of them sets which names the axis, or that of the start.
-/
def reached (start : Target) (requests : List HomingRequest) (axis : Axis) :
    Int32 :=
  (requests.reverse.findSome? (·.sets? axis)).getD (start.position.get axis)

/-- After one more move an axis stands where that move sets it, or where it stood. -/
theorem reached_concat
    (start : Target) (requests : List HomingRequest) (last : HomingRequest)
    (axis : Axis) :
    reached start (requests ++ [last]) axis =
      (last.sets? axis).getD (reached start requests axis) := by
  rw [reached, List.reverse_concat, List.findSome?_cons]
  cases last.sets? axis with
  | some steps => rfl
  | none => rfl

end HomingRequest

namespace MoveQueue

open HomingRequest

/-- Queue a homing move in the way in which it is asked for. -/
def ask (queue : MoveQueue) : HomingRequest → MoveQueue
  | .axes named feed => queue.home (.ofAxes feed named)
  | .plane x y feed => queue.homeXY x y feed
  | .vertical z feed => queue.homeZ z feed
  | .filament e feed => queue.homeE e feed

/-- Queue homing moves one after the other. -/
def askAll (queue : MoveQueue) (requests : List HomingRequest) : MoveQueue :=
  requests.foldl ask queue

/-- Every way to ask for a move names its axes in order. -/
theorem ask_eq (queue : MoveQueue) (request : HomingRequest) :
    queue.ask request = queue.home (.ofAxes request.feed request.named) := by
  cases request <;> rfl

theorem askAll_concat
    (queue : MoveQueue) (requests : List HomingRequest) (last : HomingRequest) :
    queue.askAll (requests ++ [last]) = (queue.askAll requests).ask last := by
  rw [askAll, List.foldl_concat]
  rfl

/-- A move adds the point at which it ends to the queue, and that is all. -/
theorem queued_ask (queue : MoveQueue) (request : HomingRequest) :
    (queue.ask request).queued =
      queue.queued ++ [(queue.ask request).startpoint] := by
  rw [ask_eq, home, queued_enqueue, startpoint_enqueue]

theorem position_ask (queue : MoveQueue) (request : HomingRequest) (axis : Axis) :
    (queue.ask request).startpoint.position.get axis =
      (request.sets? axis).getD (queue.startpoint.position.get axis) := by
  rw [ask_eq, home, startpoint_enqueue, HomingMove.get_position_targetFrom,
    HomingMove.coordinate, HomingMove.get_steps_ofAxes, sets?]

theorem feed_ask (queue : MoveQueue) (request : HomingRequest) :
    (queue.ask request).startpoint.feed = request.feed := by
  rw [ask_eq, home, startpoint_enqueue, HomingMove.feed_targetFrom,
    HomingMove.feed_ofAxes]

theorem origin_ask (queue : MoveQueue) (request : HomingRequest) :
    (queue.ask request).startpoint.origin = .homing := by
  rw [ask_eq, home, startpoint_enqueue, HomingMove.origin_targetFrom]

/-- Through any number of moves, each axis stands where it was set last. -/
theorem position_askAll
    (queue : MoveQueue) (requests : List HomingRequest) (axis : Axis) :
    (queue.askAll requests).startpoint.position.get axis =
      reached queue.startpoint requests axis := by
  induction requests using List.reverseRecOn with
  | nil =>
      rfl
  | append_singleton requests last ih =>
      rw [askAll_concat, position_ask, ih, reached_concat]

/-- The targets that are queued are the points at which the moves end, one for each. -/
theorem queued_askAll (queue : MoveQueue) (requests : List HomingRequest) :
    (queue.askAll requests).queued =
      queue.queued ++
        (List.range requests.length).map fun index =>
          (queue.askAll (requests.take (index + 1))).startpoint := by
  induction requests using List.reverseRecOn with
  | nil =>
      exact (List.append_nil queue.queued).symm
  | append_singleton requests last ih =>
      have earlier :
          (List.range requests.length).map (fun index =>
              (queue.askAll ((requests ++ [last]).take (index + 1))).startpoint) =
            (List.range requests.length).map fun index =>
              (queue.askAll (requests.take (index + 1))).startpoint := by
        apply List.map_congr_left
        intro index member
        rw [List.take_append_of_le_length (List.mem_range.mp member)]
      have whole :
          (requests ++ [last]).take (requests.length + 1) =
            requests ++ [last] := by
        rw [List.take_of_length_le]
        exact Nat.le_of_eq List.length_append
      rw [askAll_concat, queued_ask, ← askAll_concat, ih, List.length_append,
        List.length_singleton, List.range_succ, List.map_append,
        List.map_singleton, earlier, whole, List.append_assoc]

/--
Homing moves are queued one target each.  On every axis a target stands at the
coordinate that its move names last for the axis, or that the latest move before
it set that names the axis, or else at that of the point from which the first
move started.  Its feed rate is that of its own move, and its origin is homing,
whatever those of the start were.
-/
theorem askAll_chains (queue : MoveQueue) (requests : List HomingRequest) :
    ∃ targets,
      (queue.askAll requests).queued = queue.queued ++ targets ∧
        targets.length = requests.length ∧
        ∀ index request,
          requests[index]? = some request →
            ∃ target,
              targets[index]? = some target ∧
                (∀ axis,
                  target.position.get axis =
                    reached queue.startpoint (requests.take (index + 1)) axis) ∧
                target.feed = request.feed ∧ target.origin = .homing := by
  refine ⟨_, queue.queued_askAll requests, ?_, ?_⟩
  · rw [List.length_map, List.length_range]
  · intro index request found
    obtain ⟨inside, here⟩ := List.getElem?_eq_some_iff.mp found
    have last :
        queue.askAll (requests.take (index + 1)) =
          (queue.askAll (requests.take index)).ask request := by
      rw [List.take_succ_eq_append_getElem inside, here, askAll_concat]
    refine
      ⟨(queue.askAll (requests.take (index + 1))).startpoint, ?_,
        queue.position_askAll _, ?_, ?_⟩
    · rw [List.getElem?_map, List.getElem?_range inside]
      rfl
    · rw [last, feed_ask]
    · rw [last, origin_ask]

/--
The second of three moves names `Z` twice and leaves the other axes where the
first move and the start have put them; the third takes all of it over.
-/
theorem askAll_chains_inherited :
    let start : Target :=
      { position := { x := 10, y := 20, z := 30, e := 40 }
        feed := 500
        origin := .parsed }
    let requests : List HomingRequest :=
      [.plane (-1) (-2) 1200, .axes [(.z, 3), (.z, 0)] 50, .filament 7 60]
    requests[1]? = some (.axes [(.z, 3), (.z, 0)] 50) ∧
      requests[2]? = some (.filament 7 60) ∧
      ∃ second third,
        ((startingAt start).askAll requests).queued[1]? = some second ∧
          second.position = { x := -1, y := -2, z := 0, e := 40 } ∧
          second.feed = 50 ∧ second.origin = .homing ∧
          ((startingAt start).askAll requests).queued[2]? = some third ∧
          third.position = { x := -1, y := -2, z := 0, e := 7 } ∧
          third.feed = 60 ∧ third.origin = .homing := by
  intro start requests
  obtain ⟨targets, queued, _, each⟩ :=
    askAll_chains (startingAt start) requests
  obtain ⟨second, foundSecond, positionSecond, feedSecond, originSecond⟩ :=
    each 1 _ rfl
  obtain ⟨third, foundThird, positionThird, feedThird, originThird⟩ :=
    each 2 _ rfl
  have queued : ((startingAt start).askAll requests).queued = targets := queued
  rw [queued]
  refine
    ⟨rfl, rfl, second, third, foundSecond, ?_, feedSecond, originSecond,
      foundThird, ?_, feedThird, originThird⟩
  · apply PerAxis.eq_of_get_eq
    intro axis
    rw [positionSecond]
    cases axis <;> decide
  · apply PerAxis.eq_of_get_eq
    intro axis
    rw [positionThird]
    cases axis <;> decide

end MoveQueue

end GcodeLink
