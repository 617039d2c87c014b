import GcodeLink.Receiver.Basic
import GcodeLink.Outlet

/-!
# Channels

A channel links the machine to one host: a receiver reads what the host sends,
and an outlet takes the lines that it delivers to where they belong.  Bytes are
pushed into it one at a time together with the buffer that holds the line they
belong to, since a line that goes to a file is stored from that buffer.  A whole
line is pushed up to its first terminator.
-/

namespace GcodeLink

/-- A receiver with the outlet to which it delivers. -/
structure Channel (State : Type) where
  receiver : Receiver
  outlet : Outlet State

namespace Channel

variable {State : Type}

/-- A channel before its first line. -/
def new (receiver : Receiver) (machine : State) : Channel State :=
  { receiver, outlet := .new machine }

/-- Read one byte of a line, and route the line if the byte ends it. -/
def push (operations : Machine State) (channel : Channel State) (line : Line) (byte : UInt8) :
    Channel State × Line :=
  let receiver := channel.receiver.absorb byte
  if Byte.isTerminator byte then
    let routed := channel.outlet.route operations receiver.verdict receiver.delivered line
    ({ receiver := receiver.nextLine routed.command, outlet := routed.outlet }, routed.line)
  else
    ({ channel with receiver }, line)

/-- Read bytes of a line in order. -/
def pushAll (operations : Machine State) : Channel State → Line → List UInt8 →
    Channel State × Line
  | channel, line, [] => (channel, line)
  | channel, line, byte :: rest =>
      let pushed := channel.push operations line byte
      pushAll operations pushed.1 pushed.2 rest

/-- Answer a line that never reached the receiver. -/
def refuse (channel : Channel State) (fault : Fault) : Channel State :=
  { channel with outlet := channel.outlet.refuse fault channel.receiver.command }

/--
Read a whole line up to its first terminator.  A line without one is closed with
a line feed, or refused if there is no room for it; an empty line does nothing.
-/
def pushLine (operations : Machine State) (channel : Channel State) (line : Line) :
    Channel State × Line :=
  if line.isEmpty then
    (channel, line)
  else
    match line.close? with
    | some closed => channel.pushAll operations closed closed.bytes
    | none => (channel.refuse .lineTooLong, line)

@[simp]
theorem pushAll_nil (operations : Machine State) (channel : Channel State) (line : Line) :
    channel.pushAll operations line [] = (channel, line) := rfl

@[simp]
theorem pushAll_cons (operations : Machine State) (channel : Channel State) (line : Line)
    (byte : UInt8) (rest : List UInt8) :
    channel.pushAll operations line (byte :: rest) =
      (channel.push operations line byte).1.pushAll operations
        (channel.push operations line byte).2 rest := rfl

theorem pushAll_append (operations : Machine State) (channel : Channel State) (line : Line)
    (front rest : List UInt8) :
    channel.pushAll operations line (front ++ rest) =
      (channel.pushAll operations line front).1.pushAll operations
        (channel.pushAll operations line front).2 rest := by
  induction front generalizing channel line with
  | nil => rfl
  | cons byte front ih => simp [ih]

/-- The receiver of a channel reads bytes as any other, with the outlet as its listener. -/
theorem receiver_push (operations : Machine State) (channel : Channel State) (line : Line)
    (byte : UInt8) :
    (channel.push operations line byte).1.receiver =
      channel.receiver.push
        (fun verdict command => (channel.outlet.route operations verdict command line).command)
        byte := by
  simp only [push, Receiver.push]
  split <;> rfl

/-- A byte that does not end a line leaves the outlet and the line alone. -/
theorem push_of_not_terminator (operations : Machine State) (channel : Channel State)
    (line : Line) {byte : UInt8} (inside : Byte.isTerminator byte = false) :
    channel.push operations line byte =
      ({ channel with receiver := channel.receiver.absorb byte }, line) := by
  simp [push, inside]

end Channel

end GcodeLink
