import GcodeLink.Note.Basic
import GcodeLink.Receiver.Basic

/-!
# Notes on received bytes

A byte leaves a note when it lets a field take effect, when it is the first that
a filename has no room for, and when it ends a line.
-/

namespace GcodeLink.Receiver

/-- The note on a field that takes effect at the folded byte. -/
def fieldNotes (receiver : Receiver) (byte : UInt8) : List Note :=
  match receiver.phase with
  | .field field value =>
      if Byte.endsField byte then
        match receiver.command.store receiver.scale field value with
        | .ok _ => [.stored field value]
        | .error fault => [.dropped field fault]
      else
        []
  | _ => []

/-- The note on the first byte that the filename has no room for. -/
def filenameNotes (receiver : Receiver) (byte : UInt8) : List Note :=
  match receiver.phase with
  | .filename =>
      if !Byte.endsFilename byte && receiver.command.filename.fault?.isSome &&
          !receiver.command.filename.truncated then
        [.filenameTruncated]
      else
        []
  | _ => []

/-- The note on the judgement of the line that was read. -/
def judgementNote (receiver : Receiver) : Note :=
  match receiver.verdict with
  | .accepted =>
      .accepted receiver.delivered.gCode? receiver.delivered.mCode? receiver.delivered.target
  | .rejected fault => .rejected fault

/-- The notes on one byte, before the line that it may end is routed. -/
def notes (receiver : Receiver) (raw : UInt8) : List Note :=
  receiver.fieldNotes (Byte.fold raw) ++
    (receiver.settle (Byte.fold raw)).filenameNotes (Byte.fold raw) ++
    if Byte.isTerminator raw then [(receiver.absorb raw).judgementNote] else []

end GcodeLink.Receiver
