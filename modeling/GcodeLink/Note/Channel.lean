import GcodeLink.Note.Receiver
import GcodeLink.Channel.Run

/-!
# Notes on routed lines and on streams

A routed line leaves a note about the file it begins, ends or belongs to.  The
notes of a channel are those of its receiver followed by those of its outlet,
byte by byte; a stream adds one for each line that is discarded.
-/

namespace GcodeLink

namespace Outlet

variable {State : Type}

/-- The note on a refused line, for faults that no line is rejected for. -/
def refusalNotes : Fault → List Note
  | .badLineNumber _ | .badChecksum _ | .lineTooLong => []
  | fault => [.unexpectedFault fault]

/-- The notes on routing one line. -/
def notes (operations : Machine State) (outlet : Outlet State) (verdict : Verdict)
    (command : Command) (line : Line) : List Note :=
  match Disposition.ofLine outlet.capturing verdict command with
  | .refuse fault => refusalNotes fault
  | .refuseName => [.nameRefused]
  | .beginCapture name =>
      match (operations.create outlet.machine name).2 with
      | none => [.captureStarted]
      | some failure => [.createFailed failure]
  | .endCapture =>
      match (operations.close outlet.machine).2 with
      | none => [.captureDone]
      | some failure => [.closeFailed failure]
  | .store =>
      match (operations.write outlet.machine line.endWithLineFeed.bytes).2 with
      | none => []
      | some failure => [.writeFailed failure]
  | .refuseMalformed | .execute | .acknowledge => []

end Outlet

namespace Channel

variable {State : Type}

/-- The notes on pushing one byte. -/
def notes (operations : Machine State) (channel : Channel State) (line : Line)
    (byte : UInt8) : List Note :=
  let receiver := channel.receiver.absorb byte
  channel.receiver.notes byte ++
    if Byte.isTerminator byte then
      channel.outlet.notes operations receiver.verdict receiver.delivered line
    else
      []

/-- The notes on pushing bytes of a line in order. -/
def notesAll (operations : Machine State) (channel : Channel State) (line : Line)
    (bytes : List UInt8) : List Note :=
  Note.trail (fun state byte => state.1.push operations state.2 byte)
    (fun state byte => state.1.notes operations state.2 byte) (channel, line) bytes

/-- The notes on pushing a whole line. -/
def lineNotes (operations : Machine State) (channel : Channel State) (line : Line) :
    List Note :=
  if line.isEmpty then
    []
  else
    match line.close? with
    | some closed => channel.notesAll operations closed closed.bytes
    | none => Outlet.refusalNotes .lineTooLong

end Channel

namespace Framer

/-- The note on a byte from which on the line in flight is discarded. -/
def notes (framer : Framer) : Signal → List Note
  | .byte byte =>
      if !Byte.isTerminator byte && !framer.overflowed && (framer.take byte).overflowed then
        [.lineDiscarded]
      else
        []
  | .pending | .ended => []

end Framer

namespace Run

variable {State : Type}

/-- The notes on reading one signal. -/
def notes (operations : Machine State) (run : Run State) (signal : Signal) : List Note :=
  if run.finished then
    []
  else
    run.framer.notes signal ++
      match (run.framer.step signal).2 with
      | some (.line line) => run.channel.lineNotes operations line
      | some .tooLong => Outlet.refusalNotes .lineTooLong
      | _ => []

end Run

end GcodeLink
