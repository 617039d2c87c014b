import GcodeLink.Policy

/-!
# Receiving a line byte by byte

The receiver reads one byte at a time and never looks ahead.  Between fields it
is idle.  A letter or an asterisk opens a field, whose literal is accumulated
until a letter, an asterisk, a semicolon, an opening parenthesis or a terminator
closes it; the field takes effect at that byte, which is then read as if the
receiver had been idle.  A semicolon opens a comment up to the end of the line, a
parenthesis one up to the closing parenthesis.

Filenames do not fit this grammar.  After an `M` field that names a file and is
closed by a letter, the bytes from that letter on are the filename, up to a
blank, an asterisk or the end of the line.

A terminator ends the line whatever the receiver is reading.  The line is then
judged and delivered, and the record is made ready for the next one.
-/

namespace GcodeLink

/-- What closes a comment. -/
inductive Comment where
  /-- The comment runs to the end of the line. -/
  | semicolon
  /-- The comment runs to the closing parenthesis. -/
  | parens
  deriving DecidableEq, Repr

/-- What the receiver is reading. -/
inductive Phase where
  /-- Nothing in particular. -/
  | idle
  /-- The literal of an open field. -/
  | field (field : Field) (value : Literal)
  /-- A comment. -/
  | comment (comment : Comment)
  /-- A filename. -/
  | filename
  deriving DecidableEq, Repr

/-- The literal of the open field; it is zero when none is open. -/
def Phase.accumulator : Phase → Literal
  | .field _ value => value
  | _ => .zero

/-- The state of reading one stream of lines. -/
structure Receiver where
  policy : Policy
  scale : Scale
  phase : Phase
  command : Command
  deriving DecidableEq, Repr

namespace Receiver

/-- A receiver before its first line. -/
def new (policy : Policy) (scale : Scale) : Receiver :=
  { policy, scale, phase := .idle, command := .initial }

/-- A field that took effect at this folded byte is followed by a filename. -/
def opensFilename (field : Field) (command : Command) (byte : UInt8) : Bool :=
  field = .m && command.namesFile && Byte.isCapital byte

/-- Let a field take effect at the folded byte that closes it. -/
def settleField (receiver : Receiver) (field : Field) (value : Literal) (byte : UInt8) :
    Receiver :=
  match receiver.command.store receiver.scale field value with
  | .ok command =>
      if opensFilename field command byte then
        { receiver with
          phase := .filename
          command := { command with filename := command.filename.clear } }
      else
        { receiver with phase := .idle, command }
  | .error _ => { receiver with phase := .idle, command := receiver.command.drop field }

/-- Let the open field take effect, if the folded byte closes it. -/
def settle (receiver : Receiver) (byte : UInt8) : Receiver :=
  match receiver.phase with
  | .field field value =>
      if Byte.endsField byte then receiver.settleField field value byte else receiver
  | _ => receiver

/-- Open a field. -/
def openField (receiver : Receiver) (field : Field) : Receiver :=
  { receiver with
    phase := .field field .zero
    command := receiver.command.start field }

/-- Read a folded byte while nothing is open. -/
def readIdle (receiver : Receiver) (byte : UInt8) : Receiver :=
  if Byte.opensField byte then
    receiver.openField (.ofByte byte)
  else if byte == Byte.semicolon then
    { receiver with phase := .comment .semicolon }
  else if byte == Byte.openParen then
    { receiver with phase := .comment .parens }
  else
    { receiver with phase := .idle }

/-- Read a byte, given raw and folded, in the current phase. -/
def read (receiver : Receiver) (raw byte : UInt8) : Receiver :=
  match receiver.phase with
  | .idle => receiver.readIdle byte
  | .field field value => { receiver with phase := .field field (value.push byte) }
  | .comment .semicolon => receiver
  | .comment .parens =>
      if byte == Byte.closeParen then { receiver with phase := .idle } else receiver
  | .filename =>
      if Byte.endsFilename byte then
        receiver.readIdle byte
      else
        { receiver with
          command :=
            { receiver.command with filename := receiver.command.filename.push raw } }

/-- Let one byte take effect on the phase and the fields. -/
def step (receiver : Receiver) (raw : UInt8) : Receiver :=
  (receiver.settle (Byte.fold raw)).read raw (Byte.fold raw)

/-- Fold one byte into the sum of the line. -/
def addToSum (receiver : Receiver) (raw : UInt8) : Receiver :=
  { receiver with command := receiver.command.addToSum raw }

/-- Read one byte without ending the line; the sum takes it in before or after its effect. -/
def absorb (receiver : Receiver) (raw : UInt8) : Receiver :=
  if receiver.policy.sumIncludesMark then
    (receiver.addToSum raw).step raw
  else
    (receiver.step raw).addToSum raw

/-- The judgement on the line that was read. -/
def verdict (receiver : Receiver) : Verdict :=
  receiver.policy.judge receiver.command

/-- The record of the line that was read, its number counted if it is accepted. -/
def delivered (receiver : Receiver) : Command :=
  match receiver.verdict with
  | .accepted => receiver.command.advance
  | .rejected _ => receiver.command

/-- Go on to the next line with the record that the last one left. -/
def nextLine (receiver : Receiver) (command : Command) : Receiver :=
  { receiver with phase := .idle, command := command.nextLine }

/--
Read one byte.  If it ends the line, hand the judgement and the record to the
listener, and go on with the record that it gives back.
-/
def push (listener : Verdict → Command → Command) (receiver : Receiver) (raw : UInt8) :
    Receiver :=
  let receiver := receiver.absorb raw
  if Byte.isTerminator raw then
    receiver.nextLine (listener receiver.verdict receiver.delivered)
  else
    receiver

/-- Read bytes in order. -/
def pushAll (listener : Verdict → Command → Command) (receiver : Receiver)
    (bytes : List UInt8) : Receiver :=
  bytes.foldl (push listener) receiver

/-- A listener that leaves the record as it is. -/
def keep : Verdict → Command → Command :=
  fun _ command => command

@[simp]
theorem pushAll_nil (listener : Verdict → Command → Command) (receiver : Receiver) :
    receiver.pushAll listener [] = receiver := rfl

@[simp]
theorem pushAll_cons (listener : Verdict → Command → Command) (receiver : Receiver)
    (byte : UInt8) (rest : List UInt8) :
    receiver.pushAll listener (byte :: rest) =
      (receiver.push listener byte).pushAll listener rest := rfl

theorem pushAll_append (listener : Verdict → Command → Command) (receiver : Receiver)
    (front rest : List UInt8) :
    receiver.pushAll listener (front ++ rest) =
      (receiver.pushAll listener front).pushAll listener rest := by
  simp [pushAll]

@[simp]
theorem phase_nextLine (receiver : Receiver) (command : Command) :
    (receiver.nextLine command).phase = .idle := rfl

/-- Nothing of the current line was read yet. -/
def AtLineStart (receiver : Receiver) : Prop :=
  receiver.phase = .idle ∧ receiver.command.IsFresh

theorem atLineStart_new (policy : Policy) (scale : Scale) :
    (new policy scale).AtLineStart :=
  ⟨rfl, Command.isFresh_initial⟩

theorem atLineStart_nextLine (receiver : Receiver) (command : Command) :
    (receiver.nextLine command).AtLineStart :=
  ⟨rfl, command.isFresh_nextLine⟩

/-- A terminator leaves the receiver at the start of a line, whatever came before it. -/
theorem atLineStart_push (listener : Verdict → Command → Command) (receiver : Receiver)
    {raw : UInt8} (ends : Byte.isTerminator raw = true) :
    (receiver.push listener raw).AtLineStart := by
  simp only [push, ends, if_true]
  exact atLineStart_nextLine _ _

@[simp]
theorem command_nextLine (receiver : Receiver) (command : Command) :
    (receiver.nextLine command).command = command.nextLine := rfl

end Receiver

end GcodeLink
