import GcodeLink.Proofs.Command.Agreement

/-!
# What one line sees of another

One record serves every line, and it is not wiped between two of them: the
parameters and the line number stay where they are, and so do the bytes of a
filename in their buffer.  Still no later line shows any of this.  A parameter
is read only where its mark is set, its mark is set by its field alone, and its
field overwrites it before the line ends; until then the field is open, and
that is the one moment at which a mark stands for a number that is not there
yet.

Two receivers are followed along the same bytes.  They are alike as long as
they agree on everything but these leftovers, and being alike is kept by every
byte.  The settings, the target and the awaited number are meant to outlive a
line, so the receivers have to agree on them to begin with.
-/

namespace GcodeLink

namespace Command

/-! ## Records that show the same -/

/--
The records show the same: they agree on everything that a line may look at,
a parameter or a line number being looked at only if its mark is set.
-/
structure ShowsSame (left right : Command) : Prop where
  seen : left.seen = right.seen
  settings : left.settings = right.settings
  g : left.g = right.g
  m : left.m = right.m
  target : left.target = right.target
  name : left.SameName right
  expected : left.expected = right.expected
  sum : left.sum = right.sum
  received : left.received = right.received
  malformed : left.malformed = right.malformed
  s : left.seen.s = true → left.s = right.s
  p : left.seen.p = true → left.p = right.p
  lineNumber : left.seen.lineNumber = true → left.lineNumber = right.lineNumber

namespace ShowsSame

variable {left right : Command}

/-- Records that show the same are judged alike. -/
theorem judge (same : left.ShowsSame right) (policy : Policy) :
    policy.judge left = policy.judge right := by
  have inSequence : policy.inSequence left = policy.inSequence right := by
    rw [Policy.inSequence, Policy.inSequence, ← same.seen, ← same.expected]
    cases marked : left.seen.lineNumber with
    | false => rfl
    | true => rw [same.lineNumber marked]
  have checksumHolds :
      policy.checksumHolds left = policy.checksumHolds right := by
    rw [Policy.checksumHolds, Policy.checksumHolds, Policy.checksumMatches,
      Policy.checksumMatches, same.seen, same.received, same.sum]
  rw [Policy.judge, Policy.judge, inSequence, checksumHolds, same.expected,
    same.sum]

/-- Counting the number of an accepted line shows no more than the line did. -/
theorem advance (same : left.ShowsSame right) :
    left.advance.ShowsSame right.advance := by
  rw [Command.advance, Command.advance, ← same.seen]
  split
  · next marked =>
      exact
        { same with
          seen := rfl
          expected := congrArg followingNumber (same.lineNumber marked) }
  · exact same

end ShowsSame

/-! ## Records that are alike while a line is read -/

/-- The record without its leftovers: no parameter, no line number and no filename. -/
def blank (command : Command) : Command :=
  { command with s := 0, p := 0, lineNumber := 0, filename := .empty }

/-- Records that are the same without their leftovers agree on whatever overlooks these. -/
theorem project_of_blank
    {α : Type} {left right : Command} (project : Command → α)
    (blind : ∀ command : Command, project command.blank = project command)
    (same : left.blank = right.blank) :
    project left = project right := by
  rw [← blind left, same, blind]

theorem ratio_blank (command : Command) (scale : Scale) (field : Field) :
    command.blank.ratio scale field = command.ratio scale field := by
  cases field <;> rfl

theorem blank_start (command : Command) (field : Field) :
    (command.start field).blank = command.blank.start field := by
  cases field <;> rfl

/-- What a field does outside the leftovers does not depend on them. -/
theorem blank_settle
    (command : Command) (scale : Scale) (field : Field) (value : Literal) :
    (command.settle scale field value).blank =
      (command.blank.settle scale field value).blank := by
  cases field with
  | g | m | axis _ | feed | s | p | lineNumber =>
      exact project_settle_eq blank rfl rfl (fun _ => rfl) rfl
  | checksum | unknown _ =>
      rfl

/--
A slot whose mark is set holds the same in both records, unless its field is
the one that is being read and still has to write it.
-/
def SameWritten
    {width : Type} (field : Field) (slot : Command → width)
    (reading : Option Field) (left right : Command) : Prop :=
  left.seen.contains field = true → reading ≠ some field →
    slot left = slot right

/-- Records that agree on everything but what earlier lines left in them. -/
structure Alike (reading : Option Field) (left right : Command) : Prop where
  blank : left.blank = right.blank
  name : left.SameName right
  s : SameWritten .s (·.s) reading left right
  p : SameWritten .p (·.p) reading left right
  lineNumber : SameWritten .lineNumber (·.lineNumber) reading left right

namespace SameWritten

variable
  {width : Type} [Slot width] {field : Field} {slot : Command → width}
  {left right : Command}

/-- A field that is opened sets no other mark, and its own slot is still to be written. -/
theorem start
    (stores : Stores field slot)
    (same : SameWritten field slot none left right) (opened : Field) :
    SameWritten field slot (some opened) (left.start opened)
      (right.start opened) := by
  intro marked apart
  have distinct : field ≠ opened := by
    rintro rfl
    exact apart rfl
  rw [contains_start left stores.noG stores.noM distinct] at marked
  rw [stores.start, stores.start]
  exact same marked nofun

/-- A field that is closed has written its own slot, or lost its mark, and no other. -/
theorem settle
    (stores : Stores field slot) {closed : Field}
    (blank : left.blank = right.blank)
    (same : SameWritten field slot (some closed) left right)
    (scale : Scale) (value : Literal) :
    SameWritten field slot none (left.settle scale closed value)
      (right.settle scale closed value) := by
  have ratio : left.ratio scale field = right.ratio scale field :=
    project_of_blank (·.ratio scale field) (ratio_blank · scale field) blank
  intro marked _
  by_cases own : field = closed
  · subst own
    have converted := stores.own left scale value
    rw [ratio, ← stores.own right scale value] at converted
    cases stored : left.store scale field value with
    | error fault =>
        rw [settle_of_error stored, stores.erases] at marked
        cases marked
    | ok first =>
        cases storedRight : right.store scale field value with
        | error fault =>
            rw [stored, storedRight] at converted
            cases converted
        | ok second =>
            rw [stored, storedRight] at converted
            rw [settle_of_ok stored, settle_of_ok storedRight]
            exact Except.ok.inj converted
  · have kept (command : Command) :
        slot (command.settle scale closed value) = slot command := by
      cases stored : command.store scale closed value with
      | ok after =>
          rw [settle_of_ok stored]
          exact stores.others (Ne.symm own) stored
      | error fault =>
          rw [settle_of_error stored]
          exact stores.drop command closed
    rw [contains_settle_of_ne left scale value own] at marked
    rw [kept, kept]
    exact same marked fun open? => own (Option.some.inj open?).symm

end SameWritten

namespace Alike

variable {reading : Option Field} {left right : Command}

/-- Between fields, records that are alike show the same. -/
theorem showsSame (alike : left.Alike none right) : left.ShowsSame right where
  seen := project_of_blank (·.seen) (fun _ => rfl) alike.blank
  settings := project_of_blank (·.settings) (fun _ => rfl) alike.blank
  g := project_of_blank (·.g) (fun _ => rfl) alike.blank
  m := project_of_blank (·.m) (fun _ => rfl) alike.blank
  target := project_of_blank (·.target) (fun _ => rfl) alike.blank
  name := alike.name
  expected := project_of_blank (·.expected) (fun _ => rfl) alike.blank
  sum := project_of_blank (·.sum) (fun _ => rfl) alike.blank
  received := project_of_blank (·.received) (fun _ => rfl) alike.blank
  malformed := project_of_blank (·.malformed) (fun _ => rfl) alike.blank
  s marked := alike.s marked nofun
  p marked := alike.p marked nofun
  lineNumber marked := alike.lineNumber marked nofun

/-- A field that is opened keeps records alike. -/
theorem start (alike : left.Alike none right) (opened : Field) :
    (left.start opened).Alike (some opened) (right.start opened) where
  blank := by
    rw [blank_start, blank_start, alike.blank]
  name := by
    rw [SameName, blind_filename.start, blind_filename.start]
    exact alike.name
  s := alike.s.start stores_s opened
  p := alike.p.start stores_p opened
  lineNumber := alike.lineNumber.start stores_lineNumber opened

/-- A field that is closed keeps records alike. -/
theorem settle
    {closed : Field} (alike : left.Alike (some closed) right) (scale : Scale)
    (value : Literal) :
    (left.settle scale closed value).Alike none
      (right.settle scale closed value) where
  blank := by
    rw [blank_settle, blank_settle right, alike.blank]
  name := by
    rw [SameName, blind_filename.settle, blind_filename.settle]
    exact alike.name
  s := alike.s.settle stores_s alike.blank scale value
  p := alike.p.settle stores_p alike.blank scale value
  lineNumber :=
    alike.lineNumber.settle stores_lineNumber alike.blank scale value

/-- Filenames may change as long as they stay the same. -/
theorem withName
    (alike : left.Alike reading right) {first second : Filename}
    (bytes : first.bytes = second.bytes)
    (truncated : first.truncated = second.truncated) :
    ({ left with filename := first } : Command).Alike reading
      { right with filename := second } where
  blank := alike.blank
  name := ⟨bytes, truncated⟩
  s := alike.s
  p := alike.p
  lineNumber := alike.lineNumber

theorem pushName (alike : left.Alike reading right) (byte : UInt8) :
    ({ left with filename := left.filename.push byte } : Command).Alike reading
      { right with filename := right.filename.push byte } := by
  obtain ⟨bytes, truncated⟩ := alike.name
  apply alike.withName
  · rw [Filename.bytes_push, Filename.bytes_push, bytes]
  · rw [Filename.truncated_push, Filename.truncated_push, bytes, truncated]

theorem withSum (alike : left.Alike reading right) (sum : UInt8) :
    (left.withSum sum).Alike reading (right.withSum sum) where
  blank := congrArg (Command.withSum · sum) alike.blank
  name := alike.name
  s := alike.s
  p := alike.p
  lineNumber := alike.lineNumber

end Alike

/-- Records that are alike take in the same. -/
theorem keptInTandem_alike : KeptInTandem Alike where
  start field alike := alike.start field
  settle scale value alike := alike.settle scale value
  clearName alike := alike.withName (by simp) rfl
  pushName byte alike := alike.pushName byte

/-- At the start of a line nothing was written yet, so that only what outlives a line matters. -/
theorem alike_of_isFresh
    {left right : Command} (leftFresh : left.IsFresh) (rightFresh : right.IsFresh)
    (settings : left.settings = right.settings)
    (target : left.target = right.target)
    (expected : left.expected = right.expected) :
    left.Alike none right := by
  obtain ⟨seen, g, m, sum, received, malformed, bytes, truncated⟩ := leftFresh
  obtain ⟨seen', g', m', sum', received', malformed', bytes', truncated'⟩ :=
    rightFresh
  have unwritten {width : Type} {field : Field} (slot : Command → width)
      (unmarked : startingFields.contains field = false) :
      SameWritten field slot none left right := by
    intro marked
    rw [seen, unmarked] at marked
    cases marked
  constructor
  case blank =>
    simp only [blank, seen, g, m, sum, received, malformed, seen', g', m', sum',
      received', malformed', settings, target, expected]
  case name =>
    exact ⟨bytes.trans bytes'.symm, truncated.trans truncated'.symm⟩
  case s =>
    exact unwritten (·.s) rfl
  case p =>
    exact unwritten (·.p) rfl
  case lineNumber =>
    exact unwritten (·.lineNumber) rfl

end Command

/-! ## Receivers that are alike -/

namespace Receiver

/-- Receivers that read the same bytes alike from here on. -/
structure Alike (left right : Receiver) : Prop
    extends left.Tandem Command.Alike right where
  policy : left.policy = right.policy

namespace Alike

variable {left right : Receiver}

/-- One byte keeps receivers alike. -/
theorem absorb (alike : left.Alike right) (raw : UInt8) :
    (left.absorb raw).Alike (right.absorb raw) := by
  have stepped := alike.toTandem.step Command.keptInTandem_alike raw
  have seen {reading : Option Field} {left right : Command}
      (alike : left.Alike reading right) :
      left.seen = right.seen :=
    Command.project_of_blank (·.seen) (fun _ => rfl) alike.blank
  have sum : left.command.sum = right.command.sum :=
    Command.project_of_blank (·.sum) (fun _ => rfl) alike.command.blank
  have covers : left.covers raw = right.covers raw := by
    rw [Receiver.covers, Receiver.covers, alike.policy, seen alike.command,
      seen stepped.command]
  rw [absorb_eq, absorb_eq, covers, sum]
  constructor
  case toTandem =>
    exact ⟨stepped.scale, stepped.phase, stepped.command.withSum _⟩
  case policy =>
    show (left.step raw).policy = (right.step raw).policy
    rw [policy_step, policy_step, alike.policy]

end Alike

/-! ## From line to line -/

/-- The receiver has just read the end of a line, whatever it was told before. -/
def AfterLine (receiver : Receiver) : Prop :=
  ∃ (before : Receiver) (listener : Verdict → Command → Command)
    (bytes : List UInt8) (terminator : UInt8),
    Byte.isTerminator terminator = true ∧
      receiver = before.pushAll listener (bytes ++ [terminator])

theorem AfterLine.atLineStart
    {receiver : Receiver} (after : receiver.AfterLine) :
    receiver.AtLineStart := by
  obtain ⟨before, listener, bytes, terminator, ends, rfl⟩ := after
  rw [pushAll_append]
  exact atLineStart_push listener _ ends

namespace Alike

variable {left right : Receiver}

/-- Receivers at the start of a line are alike if they agree on what outlives a line. -/
theorem of_atLineStart
    (leftStart : left.AtLineStart) (rightStart : right.AtLineStart)
    (policy : left.policy = right.policy) (scale : left.scale = right.scale)
    (settings : left.command.settings = right.command.settings)
    (target : left.command.target = right.command.target)
    (expected : left.command.expected = right.command.expected) :
    left.Alike right where
  policy := policy
  scale := scale
  phase := leftStart.1.trans rightStart.1.symm
  command := by
    rw [leftStart.1]
    exact
      Command.alike_of_isFresh leftStart.2 rightStart.2 settings target expected

/-- Between fields, receivers that are alike pass the same verdict and hand over the same. -/
theorem delivered
    (alike : left.Alike right) (closed : left.phase.open? = none) :
    left.verdict = right.verdict ∧
      left.delivered.ShowsSame right.delivered := by
  have command := alike.command
  rw [closed] at command
  have same := command.showsSame
  have verdict : left.verdict = right.verdict := by
    rw [Receiver.verdict, Receiver.verdict, alike.policy]
    exact same.judge right.policy
  refine ⟨verdict, ?_⟩
  rw [Receiver.delivered, Receiver.delivered, verdict]
  split
  · exact same.advance
  · exact same

/-- The end of a line keeps receivers alike as well. -/
theorem push (alike : left.Alike right) (raw : UInt8) :
    (left.push keep raw).Alike (right.push keep raw) := by
  have absorbed := alike.absorb raw
  rw [Receiver.push, Receiver.push]
  split
  · next ends =>
      obtain ⟨_, same⟩ :=
        absorbed.delivered (left.open?_absorb_of_isTerminator ends)
      apply of_atLineStart
      · exact atLineStart_nextLine _ _
      · exact atLineStart_nextLine _ _
      · exact absorbed.policy
      · exact absorbed.scale
      · exact same.settings
      · simp only [keep, command_nextLine, Command.nextLine, same.settings,
          same.target]
      · exact same.expected
  · exact absorbed

/-- Receivers that are alike hand over the same lines with the same verdicts. -/
theorem deliveries (alike : left.Alike right) (bytes : List UInt8) :
    List.Forall₂
      (fun first second =>
        first.1 = second.1 ∧ first.2.ShowsSame second.2)
      (left.deliveries keep bytes) (right.deliveries keep bytes) := by
  induction bytes generalizing left right with
  | nil =>
      exact .nil
  | cons byte rest ih =>
      rw [Receiver.deliveries, Receiver.deliveries]
      have later := ih (alike.push byte)
      split
      · next ends =>
          exact
            .cons
              ((alike.absorb byte).delivered
                (left.open?_absorb_of_isTerminator ends))
              later
      · exact later

end Alike

/--
Whatever two receivers read before, from the end of a line on they hand over
the same lines, with the same verdicts and with records that show the same, if
they agree on the policy, the scale, the settings, the target and the awaited
number.
-/
theorem deliveries_isolated
    {left right : Receiver}
    (leftStart : left.AfterLine) (rightStart : right.AfterLine)
    (policy : left.policy = right.policy) (scale : left.scale = right.scale)
    (settings : left.command.settings = right.command.settings)
    (target : left.command.target = right.command.target)
    (expected : left.command.expected = right.command.expected)
    (bytes : List UInt8) :
    List.Forall₂
      (fun first second =>
        first.1 = second.1 ∧ first.2.ShowsSame second.2)
      (left.deliveries keep bytes) (right.deliveries keep bytes) := by
  have alike : left.Alike right :=
    .of_atLineStart leftStart.atLineStart rightStart.atLineStart policy scale
      settings target expected
  exact alike.deliveries bytes

/-- A receiver after the line `S7N9M28 abc*0`, which is rejected for its checksum. -/
def afterRejected : Receiver :=
  (Receiver.new .lenient .zero).pushAll keep
    ([83, 55, 78, 57, 77, 50, 56, 32, 97, 98, 99, 42, 48] ++ [Byte.lineFeed])

/-- A receiver after the line `(P`, whose comment is not closed. -/
def afterComment : Receiver :=
  (Receiver.new .lenient .zero).pushAll keep
    ([40, 80] ++ [Byte.carriageReturn])

/-- The line `S1P2` shows neither the parameters nor the filename from before it. -/
theorem deliveries_isolated_parameters :
    List.Forall₂
      (fun first second =>
        first.1 = second.1 ∧ first.2.ShowsSame second.2)
      (afterRejected.deliveries keep [83, 49, 80, 50, 10])
      (afterComment.deliveries keep [83, 49, 80, 50, 10]) :=
  deliveries_isolated ⟨_, _, _, _, rfl, rfl⟩ ⟨_, _, _, _, rfl, rfl⟩
    (by decide) (by decide) (by decide) (by decide) (by decide) _

end Receiver

end GcodeLink
