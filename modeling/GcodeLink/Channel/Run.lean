import GcodeLink.Framer
import GcodeLink.Channel.Basic

/-!
# Driving a channel from a stream

A run frames a stream and hands each line to its channel until the framer
reports the end.  It reads the stream one signal at a time, and a finished run
reads no more, so that the whole of it is a fold over the signals.  After the
last signal the stream answers that it has ended as often as it is asked; a run
asks at most twice, once to close a line that was left open and once to learn of
the end.

A run can be given up while it waits.  What its framer holds is lost then, and
the channel stays as the last whole line left it.
-/

namespace GcodeLink

/-- A channel on its way through a stream. -/
structure Run (State : Type) where
  channel : Channel State
  framer : Framer
  /-- The number of signals read so far. -/
  reads : Nat
  finished : Bool

namespace Run

variable {State : Type}

/-- A run before its first signal. -/
def start (channel : Channel State) : Run State :=
  { channel, framer := .new, reads := 0, finished := false }

/-- Act on what the framer answers. -/
def handle (operations : Machine State) (channel : Channel State) : Poll → Channel State
  | .line line => (channel.pushLine operations line).1
  | .tooLong => channel.refuse .lineTooLong
  | .pending | .ended => channel

/-- Read one signal. -/
def step (operations : Machine State) (run : Run State) (signal : Signal) : Run State :=
  if run.finished then
    run
  else
    match run.framer.step signal with
    | (framer, none) => { run with framer, reads := run.reads + 1 }
    | (framer, some poll) =>
        { channel := handle operations run.channel poll
          framer
          reads := run.reads + 1
          finished := poll = .ended }

/--
The signals that a run is given.  With a limit, the run is given up when it has
waited that often; otherwise the end of the stream follows the last signal.
-/
def schedule : Option Nat → List Signal → List Signal
  | some 0, _ => []
  | _, [] => [.ended, .ended]
  | some (waits + 1), .pending :: rest => .pending :: schedule (some waits) rest
  | limit, signal :: rest => signal :: schedule limit rest

/-- Read signals in order. -/
def drive (operations : Machine State) (run : Run State) (signals : List Signal) :
    Run State :=
  signals.foldl (step operations) run

@[simp]
theorem drive_nil (operations : Machine State) (run : Run State) :
    run.drive operations [] = run := rfl

@[simp]
theorem drive_cons (operations : Machine State) (run : Run State) (signal : Signal)
    (rest : List Signal) :
    run.drive operations (signal :: rest) =
      (run.step operations signal).drive operations rest := rfl

theorem drive_append (operations : Machine State) (run : Run State)
    (front rest : List Signal) :
    run.drive operations (front ++ rest) =
      (run.drive operations front).drive operations rest := by
  simp [drive]

/-- A finished run reads no more. -/
@[simp]
theorem step_of_finished (operations : Machine State) {run : Run State}
    (finished : run.finished = true) (signal : Signal) :
    run.step operations signal = run := by
  simp [step, finished]

/-- Without a limit every signal is given, and then the end. -/
theorem schedule_none (signals : List Signal) :
    schedule none signals = signals ++ [.ended, .ended] := by
  induction signals with
  | nil => rfl
  | cons signal rest ih => simp [schedule, ih]

end Run

namespace Channel

variable {State : Type}

/-- Run a channel over a stream, and give up after waiting as often as the limit says. -/
def runWithin (operations : Machine State) (channel : Channel State) (limit : Option Nat)
    (signals : List Signal) : Run State :=
  (Run.start channel).drive operations (Run.schedule limit signals)

/-- The channel after a complete run over a stream. -/
def run (operations : Machine State) (channel : Channel State) (signals : List Signal) :
    Channel State :=
  (channel.runWithin operations none signals).channel

end Channel

end GcodeLink
