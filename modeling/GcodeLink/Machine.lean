import GcodeLink.Command
import GcodeLink.Reply

/-!
# The machine behind the link

A machine executes commands and keeps files.  It is given by what each of its
operations does to a state of any type, so that what is shown of the link holds
for every machine.  Storage may fail at every operation; a failure is reported
and changes nothing on the link's side by itself.

`Call` names the dealings of the link with the machine and with the host, each
with what came of it.
-/

namespace GcodeLink

/-- Why a storage operation failed. -/
structure StorageFailure where
  reason : String
  deriving DecidableEq, Repr

/-- What an executed command leaves behind. -/
structure Executed (State : Type) where
  state : State
  /-- The record, whose settings and numbering the command may have changed. -/
  command : Command
  /-- Whether the host still awaits an acknowledgement. -/
  acknowledge : Bool

/-- The operations of a machine on its state. -/
structure Machine (State : Type) where
  process : State → Command → Executed State
  create : State → List UInt8 → State × Option StorageFailure
  write : State → List UInt8 → State × Option StorageFailure
  close : State → State × Option StorageFailure

/-- A dealing of the link with the machine or the host. -/
inductive Call where
  /-- A command was executed, given as it was before. -/
  | process (command : Command)
  /-- A file of this name was created, or could not be. -/
  | create (name : List UInt8) (failure : Option StorageFailure)
  /-- Bytes were written to the file, or could not be. -/
  | write (data : List UInt8) (failure : Option StorageFailure)
  /-- The file was closed, or its end could not be stored. -/
  | close (failure : Option StorageFailure)
  /-- The host was sent a reply. -/
  | reply (reply : Reply)
  deriving DecidableEq, Repr

namespace Call

/-- The reply that a call sends to the host. -/
def reply? : Call → Option Reply
  | .reply sent => some sent
  | _ => none

end Call

end GcodeLink
