import GcodeLink.Machine

/-!
# Where a judged line goes

The outlet takes each judged line to its destination.  A rejected line is
answered and goes nowhere.  An accepted line is executed, unless a file is being
written: then it is stored, and `M29` ends the file.  `M28` begins a file under
the name on its line, and the other commands on files are only acknowledged
while one is being written.

`Disposition` is the decision, which depends on the line and on whether a file
is being written; `Outlet.route` carries it out and records the calls it makes.
-/

namespace GcodeLink

/-- What is to be done with a judged line. -/
inductive Disposition where
  /-- Answer a rejected line. -/
  | refuse (fault : Fault)
  /-- Refuse to execute a line of which a field was dropped. -/
  | refuseMalformed
  /-- Refuse to create a file without a complete name. -/
  | refuseName
  /-- Create a file and store the lines that follow. -/
  | beginCapture (name : List UInt8)
  /-- Execute the command. -/
  | execute
  /-- Close the file and go back to executing. -/
  | endCapture
  /-- Acknowledge a command on files that has no place in a file. -/
  | acknowledge
  /-- Store the line. -/
  | store
  deriving DecidableEq, Repr

namespace Disposition

/-- What is to be done with an accepted line while no file is being written. -/
def executing (command : Command) : Disposition :=
  if command.malformed then
    .refuseMalformed
  else if command.mCode? = some 28 then
    if command.filename.isComplete then
      .beginCapture command.filename.bytes
    else
      .refuseName
  else
    .execute

/-- What is to be done with an accepted line while a file is being written. -/
def capturing (command : Command) : Disposition :=
  match command.mCode? with
  | some code =>
      if code = 29 then .endCapture
      else if 20 ≤ code ∧ code ≤ 28 then .acknowledge
      else .store
  | none => .store

/-- What is to be done with a judged line. -/
def ofLine (writing : Bool) (verdict : Verdict) (command : Command) : Disposition :=
  match verdict with
  | .rejected fault => .refuse fault
  | .accepted => if writing then capturing command else executing command

@[simp]
theorem ofLine_writing (command : Command) :
    ofLine true .accepted command = capturing command := rfl

@[simp]
theorem ofLine_not_writing (command : Command) :
    ofLine false .accepted command = executing command := rfl

end Disposition

/-- The state of the outlet and the calls it made, the oldest first. -/
structure Outlet (State : Type) where
  machine : State
  /-- Whether lines are stored instead of executed. -/
  capturing : Bool
  calls : List Call

/-- What a routed line leaves behind. -/
structure Routed (State : Type) where
  outlet : Outlet State
  /-- The record, as a command left it. -/
  command : Command
  /-- The line, as it was stored. -/
  line : Line

namespace Outlet

variable {State : Type}

/-- An outlet before its first line. -/
def new (machine : State) : Outlet State :=
  { machine, capturing := false, calls := [] }

/-- Record a call. -/
def record (outlet : Outlet State) (call : Call) : Outlet State :=
  { outlet with calls := outlet.calls ++ [call] }

/-- Send a reply to the host. -/
def send (outlet : Outlet State) (reply : Reply) : Outlet State :=
  outlet.record (.reply reply)

/-- Ask the host to send again from the line that is awaited. -/
def requestResend (outlet : Outlet State) (command : Command) : Outlet State :=
  outlet.send (.resend command.expected)

/--
Answer a line that must be neither executed nor stored.  A line that was too
long would be too long again, so only the other faults ask for it once more.
-/
def refuse (outlet : Outlet State) (fault : Fault) (command : Command) : Outlet State :=
  match fault with
  | .badLineNumber expected =>
      (outlet.send (.expectedLineNumber expected)).requestResend command
  | .badChecksum computed =>
      (outlet.send (.expectedChecksum computed)).requestResend command
  | .lineTooLong => outlet.send .lineTooLong
  | .numberOverflow | .filenameTruncated => outlet.requestResend command

/-- Create a file, and store lines from now on if that succeeds. -/
def beginCapture (operations : Machine State) (outlet : Outlet State) (name : List UInt8) :
    Outlet State :=
  match operations.create outlet.machine name with
  | (machine, none) =>
      ({ outlet with machine, capturing := true }.record (.create name none)).send .ok
  | (machine, some failure) =>
      ({ outlet with machine }.record (.create name (some failure))).send .openFailed

/-- Close the file and execute lines from now on, even if its end could not be stored. -/
def endCapture (operations : Machine State) (outlet : Outlet State) : Outlet State :=
  match operations.close outlet.machine with
  | (machine, none) =>
      ({ outlet with machine, capturing := false }.record (.close none)).send .doneSavingFile
  | (machine, some failure) =>
      ({ outlet with machine, capturing := false }.record (.close (some failure))).send
        .writeFailed

/-- Write bytes to the file. -/
def store (operations : Machine State) (outlet : Outlet State) (data : List UInt8) :
    Outlet State :=
  match operations.write outlet.machine data with
  | (machine, none) => ({ outlet with machine }.record (.write data none)).send .ok
  | (machine, some failure) =>
      ({ outlet with machine }.record (.write data (some failure))).send .writeFailed

/-- Execute a command, and acknowledge it unless it answered the host itself. -/
def execute (operations : Machine State) (outlet : Outlet State) (command : Command)
    (line : Line) : Routed State :=
  let executed := operations.process outlet.machine command
  let processed := { outlet with machine := executed.state }.record (.process command)
  { outlet := if executed.acknowledge then processed.send .ok else processed
    command := executed.command
    line }

/-- Take a judged line to its destination; a stored line is left ending with a line feed. -/
def route (operations : Machine State) (outlet : Outlet State) (verdict : Verdict)
    (command : Command) (line : Line) : Routed State :=
  match Disposition.ofLine outlet.capturing verdict command with
  | .refuse fault => { outlet := outlet.refuse fault command, command, line }
  | .refuseMalformed => { outlet := outlet.send .numberOverflow, command, line }
  | .refuseName => { outlet := outlet.send .openFailed, command, line }
  | .beginCapture name => { outlet := outlet.beginCapture operations name, command, line }
  | .execute => outlet.execute operations command line
  | .endCapture => { outlet := outlet.endCapture operations, command, line }
  | .acknowledge => { outlet := outlet.send .ok, command, line }
  | .store =>
      { outlet := outlet.store operations line.endWithLineFeed.bytes
        command
        line := line.endWithLineFeed }

@[simp]
theorem calls_record (outlet : Outlet State) (call : Call) :
    (outlet.record call).calls = outlet.calls ++ [call] := rfl

@[simp]
theorem capturing_record (outlet : Outlet State) (call : Call) :
    (outlet.record call).capturing = outlet.capturing := rfl

@[simp]
theorem calls_send (outlet : Outlet State) (reply : Reply) :
    (outlet.send reply).calls = outlet.calls ++ [.reply reply] := rfl

@[simp]
theorem capturing_send (outlet : Outlet State) (reply : Reply) :
    (outlet.send reply).capturing = outlet.capturing := rfl

end Outlet

end GcodeLink
