import GcodeLink.Field
import GcodeLink.Filename
import GcodeLink.Scale
import GcodeLink.Target

/-!
# The command of a line

One record holds everything read so far of the current line.  The same record
serves every line: the target, the parameters, the settings and the numbering
outlive the line, and everything else is reset when it ends.

A field takes effect in two steps.  Its letter marks it as seen, and a `G` or
`M` cancels the other of the two, so that the last of them decides what the line
is.  When the field is complete its literal is converted and stored; a literal
that cannot be converted takes the mark back and leaves the line malformed.
-/

namespace GcodeLink

/-- The settings that lines share until a command changes them. -/
structure Settings where
  /-- Coordinates are displacements. -/
  relative : Bool
  /-- Coordinates and feed are in inches. -/
  inches : Bool
  deriving DecidableEq, Repr

/-- The settings of a new channel. -/
def Settings.initial : Settings :=
  { relative := false, inches := false }

/-- Everything read so far of the current line. -/
@[ext]
structure Command where
  seen : FieldSet
  settings : Settings
  g : UInt8
  m : UInt16
  target : Target
  s : Int16
  p : UInt16
  lineNumber : UInt32
  filename : Filename
  /-- The number that the next numbered line must carry. -/
  expected : UInt32
  /-- The exclusive or of the bytes that the checksum covers. -/
  sum : UInt8
  /-- The checksum that the line carries, if it could be read. -/
  received : Option UInt8
  /-- Whether a field could not be converted and was dropped. -/
  malformed : Bool
  deriving DecidableEq, Repr

/-- The line number after a given one; the last number follows itself. -/
def followingNumber (number : UInt32) : UInt32 :=
  if number = 4294967295 then number else number + 1

theorem toNat_followingNumber (number : UInt32) :
    (followingNumber number).toNat = min (number.toNat + 1) 4294967295 := by
  unfold followingNumber
  split
  · next last => simp [last]
  · next room =>
    have bound := number.toNat_lt
    have : number.toNat ≠ 4294967295 := fun last => room (UInt32.toNat_inj.mp last)
    rw [UInt32.toNat_add, UInt32.toNat_one]
    omega

/-- The `M` codes that a filename may follow: one opens a file, the other creates it. -/
def takesFilename (code : UInt16) : Bool :=
  code == 23 || code == 28

namespace Command

/-- A line that names no code repeats a linear move, so a line starts out as `G1`. -/
def startingFields : FieldSet :=
  FieldSet.empty.insert .g

/-- The record of a new channel. -/
def initial : Command where
  seen := startingFields
  settings := .initial
  g := 1
  m := 0
  target := .zero
  s := 0
  p := 0
  lineNumber := 0
  filename := .empty
  expected := 0
  sum := 0
  received := none
  malformed := false

/-- The `G` code, if the line is a `G` command. -/
def gCode? (command : Command) : Option UInt8 :=
  if command.seen.g then some command.g else none

/-- The `M` code, if the line is an `M` command. -/
def mCode? (command : Command) : Option UInt16 :=
  if command.seen.m then some command.m else none

/-- Start the next line: forget the fields, keep the target, settings and numbering. -/
def nextLine (command : Command) : Command :=
  { command with
    seen := startingFields
    g := 1
    m := 0
    sum := 0
    received := none
    malformed := false
    filename := command.filename.clear
    target := if command.settings.relative then command.target.atOrigin else command.target }

/-- Mark a field as seen; the last of `G` and `M` decides what the line is. -/
def start (command : Command) (field : Field) : Command :=
  match field with
  | .g => { command with seen := (command.seen.insert .g).erase .m, m := 0 }
  | .m => { command with seen := (command.seen.insert .m).erase .g, g := 0 }
  | _ => { command with seen := command.seen.insert field }

/-- The ratio from the literal of a field to the unit of its slot. -/
def ratio (command : Command) (scale : Scale) : Field → Ratio
  | .axis axis => scale.ratio axis command.settings.inches
  | .feed => feedRatio command.settings.inches
  | .p => pauseRatio (command.gCode? == some 4)
  | _ => .one

/-- Convert the literal of a complete field and store it. -/
def store (command : Command) (scale : Scale) (field : Field) (value : Literal) :
    Except Fault Command :=
  let ratio := command.ratio scale field
  match field with
  | .g => (value.fit ratio).map fun g => { command with g }
  | .m => (value.fit ratio).map fun m => { command with m }
  | .axis axis =>
      (value.fit ratio).map fun steps =>
        { command with target := command.target.setAxis axis steps }
  | .feed =>
      (value.fit ratio).map fun feed =>
        { command with target := { command.target with feed } }
  | .s => (value.fit ratio).map fun s => { command with s }
  | .p => (value.fit ratio).map fun p => { command with p }
  | .lineNumber => (value.fit ratio).map fun lineNumber => { command with lineNumber }
  | .checksum => .ok { command with received := (value.fit ratio).toOption }
  | .unknown _ => .ok command

/-- Take back a field that could not be converted. -/
def drop (command : Command) (field : Field) : Command :=
  { command with seen := command.seen.erase field, malformed := true }

/-- The `M` code opens or creates a file, so that a filename may follow it. -/
def namesFile (command : Command) : Bool :=
  takesFilename command.m

/-- Fold one byte into the sum, unless the checksum field was met. -/
def addToSum (command : Command) (byte : UInt8) : Command :=
  if command.seen.checksum then command else { command with sum := command.sum ^^^ byte }

/-- After an accepted line that carries a number, await the following number. -/
def advance (command : Command) : Command :=
  if command.seen.lineNumber then
    { command with expected := followingNumber command.lineNumber }
  else
    command

/-- The record holds nothing of its line yet. -/
def IsFresh (command : Command) : Prop :=
  command.seen = startingFields ∧ command.g = 1 ∧ command.m = 0 ∧ command.sum = 0 ∧
    command.received = none ∧ command.malformed = false ∧ command.filename.bytes = [] ∧
    command.filename.truncated = false

theorem isFresh_initial : initial.IsFresh :=
  ⟨rfl, rfl, rfl, rfl, rfl, rfl, rfl, rfl⟩

theorem isFresh_nextLine (command : Command) : command.nextLine.IsFresh :=
  ⟨rfl, rfl, rfl, rfl, rfl, rfl, rfl, rfl⟩

@[simp]
theorem settings_nextLine (command : Command) : command.nextLine.settings = command.settings := rfl

end Command

end GcodeLink
