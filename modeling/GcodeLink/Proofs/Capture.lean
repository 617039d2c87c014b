import GcodeLink.Proofs.Channel.Lines
import GcodeLink.Proofs.Rejection

/-!
# What a captured file leaves behind

While a file is being written its lines are stored, acknowledged or, at its end,
made to close it, but none is executed.  Their fields are read into the shared
record all the same.  The settings come through unchanged; the target does so
only if the fields of the file, taken together, give it no other numbers.
-/

namespace GcodeLink

/-! ## The fields of several lines -/

/-- The unit of a coordinate or a feed rate does not depend on the fields before it. -/
theorem Entry.conversions_append_of_constant
    {width : Type} [Slot width] {scale : Scale} {inches : Bool} {field : Field}
    (constant : ∀ earlier other,
      ratio scale inches earlier field = ratio scale inches other field)
    (front back : List Entry) :
    conversions width scale inches field (front ++ back) =
      conversions width scale inches field front ++
        conversions width scale inches field back := by
  induction back using List.reverseRecOn with
  | nil =>
      rw [List.append_nil]
      exact (List.append_nil _).symm
  | append_singleton back entry ih =>
      rw [← List.append_assoc]
      by_cases same : entry.field = field
      · obtain ⟨_, value⟩ := entry
        subst same
        rw [conversions_append_self, conversions_append_self, ih,
          constant (front ++ back) back, List.append_assoc]
      · rw [conversions_append_of_ne _ _ _ _ same,
          conversions_append_of_ne _ _ _ _ same, ih]

/-- Lines after others leave what all their fields together leave. -/
theorem Command.LeavesTarget.trans
    {after middle before : Command} {scale : Scale} {front back : List Entry}
    (first : middle.LeavesTarget before scale front)
    (second : after.LeavesTarget middle scale back) :
    after.LeavesTarget before scale (front ++ back) := by
  have same := first.settings
  constructor
  case settings =>
    exact second.settings.trans same
  case absolute =>
    intro absolute axis
    have later := second.absolute
    rw [same] at later
    rw [Entry.conversions_append_of_constant (fun _ _ => rfl),
      lastNumber_append, ← first.absolute absolute axis]
    exact later absolute axis
  case relative =>
    intro relative axis
    apply second.relative
    rw [same]
    exact relative
  case feed =>
    have later := second.feed
    rw [same] at later
    rw [Entry.conversions_append_of_constant (fun _ _ => rfl),
      lastNumber_append, ← first.feed]
    exact later
  case origin =>
    exact second.origin.trans first.origin

/-- An accepted line of which nothing is executed leaves of the target what its fields leave. -/
theorem Receiver.leaves_of_accepted
    {receiver : Receiver} (start : receiver.AtLineStart)
    (line : List UInt8) {terminator : UInt8}
    (ends : Byte.isTerminator terminator = true)
    (accepted : (receiver.complete line terminator).verdict = .accepted) :
    ((receiver.complete line terminator).nextLine
        (receiver.complete line terminator).delivered).command.LeavesTarget
      receiver.command receiver.scale (Part.entries (Part.ofBytes line)) := by
  have reads := (reads_complete start line ends).entries
  rw [command_nextLine]
  apply Command.ReadsEntries.leaves_nextLine
  rw [delivered, accepted]
  show (Command.advance _).ReadsEntries _ _ _
  rw [Command.advance]
  split
  · exact reads.frame _ _ _
  · exact reads

/-! ## Captured lines -/

namespace Channel

variable {State : Type} (operations : Machine State)

/--
The lines are captured one after the other: each is accepted while a file is
being written.  Each comes in a buffer of its own.
-/
inductive Captures : Channel State → List (List UInt8) → Channel State → Prop where
  | nil (channel : Channel State) :
      Captures channel [] channel
  | cons
      {channel after : Channel State} {text : List UInt8} {terminator : UInt8}
      {rest : List (List UInt8)} (line : Line)
      (start : channel.receiver.AtLineStart)
      (writing : channel.outlet.capturing = true)
      (plain : Byte.Unterminated text)
      (ends : Byte.isTerminator terminator = true)
      (accepted :
        (channel.receiver.complete text terminator).verdict = .accepted)
      (later :
        Captures (channel.pushAll operations line (text ++ [terminator])).1 rest
          after) :
      Captures channel (text :: rest) after

/-- The fields of lines in order. -/
def entries (lines : List (List UInt8)) : List Entry :=
  lines.flatMap fun text => Part.entries (Part.ofBytes text)

/-- Whatever becomes of a captured line, the receiver goes on with its record. -/
theorem receiver_pushAll_captured
    {channel : Channel State} (writing : channel.outlet.capturing = true)
    {text : List UInt8} (plain : Byte.Unterminated text)
    {terminator : UInt8} (ends : Byte.isTerminator terminator = true)
    (accepted :
      (channel.receiver.complete text terminator).verdict = .accepted)
    (line : Line) :
    (channel.pushAll operations line (text ++ [terminator])).1.receiver =
      (channel.receiver.complete text terminator).nextLine
        (channel.receiver.complete text terminator).delivered := by
  have stored :
      Disposition.ofLine channel.outlet.capturing
          (channel.receiver.complete text terminator).verdict
          (channel.receiver.complete text terminator).delivered ≠
        .execute := by
    rw [accepted, writing, Disposition.ofLine_writing]
    exact Disposition.capturing_ne_execute _
  rw [pushAll_line operations channel line plain ends]
  exact
    congrArg (channel.receiver.complete text terminator).nextLine
      (channel.outlet.command_route operations stored line)

namespace Captures

variable {operations} {channel after : Channel State}

/-- A capture ends at the start of a line, with the scale that it began with. -/
theorem atLineStart
    {lines : List (List UInt8)}
    (captures : Captures operations channel lines after)
    (start : channel.receiver.AtLineStart) :
    after.receiver.AtLineStart ∧
      after.receiver.scale = channel.receiver.scale := by
  induction captures with
  | nil channel =>
      exact ⟨start, rfl⟩
  | cons line _ writing plain ends accepted later ih =>
      rw [receiver_pushAll_captured operations writing plain ends accepted,
        Receiver.scale_nextLine, Receiver.scale_complete] at ih
      exact ih (Receiver.atLineStart_nextLine _ _)

/-- Captured lines leave of the target what all their fields together leave. -/
theorem leaves
    {text : List UInt8} {rest : List (List UInt8)}
    (captures : Captures operations channel (text :: rest) after) :
    after.receiver.command.LeavesTarget channel.receiver.command
      channel.receiver.scale (entries (text :: rest)) := by
  induction rest generalizing channel text with
  | nil =>
      cases captures with
      | cons line start writing plain ends accepted later =>
          cases later
          have only : entries [text] = Part.entries (Part.ofBytes text) :=
            List.append_nil _
          rw [receiver_pushAll_captured operations writing plain ends accepted,
            only]
          exact Receiver.leaves_of_accepted start text ends accepted
  | cons next rest ih =>
      cases captures with
      | cons line start writing plain ends accepted later =>
          have others := ih later
          rw [receiver_pushAll_captured operations writing plain ends accepted,
            Receiver.scale_nextLine, Receiver.scale_complete] at others
          exact
            (Receiver.leaves_of_accepted start text ends accepted).trans others

end Captures

/--
A captured file leaves the settings alone, whether its lines are stored,
acknowledged or close it.  It leaves the target alone, and with it all lines
after it, exactly if its fields, taken together, keep it.
-/
theorem captures_target
    {channel after : Channel State}
    {text : List UInt8} {rest : List (List UInt8)}
    (captures : Captures operations channel (text :: rest) after) :
    after.receiver.command.settings = channel.receiver.command.settings ∧
      (after.receiver.command.target = channel.receiver.command.target ↔
        channel.receiver.command.KeepsTarget channel.receiver.scale
          (entries (text :: rest))) ∧
      ((∀ later,
          (after.receiver.deliveries Receiver.keep later).map (·.2.target) =
            (channel.receiver.deliveries Receiver.keep later).map
              (·.2.target)) ↔
        channel.receiver.command.KeepsTarget channel.receiver.scale
          (entries (text :: rest))) := by
  have leaves := captures.leaves
  have start : channel.receiver.AtLineStart := by
    cases captures with
    | cons line start _ _ _ _ _ => exact start
  obtain ⟨next, scale⟩ := captures.atLineStart start
  refine ⟨leaves.settings, leaves.target_eq_iff, ?_⟩
  rw [Receiver.later_targets_iff start.1 next.1 scale leaves.settings]
  exact leaves.target_eq_iff

/-- A channel that is writing a file, with a hundred steps to the millimetre on each axis. -/
def writing : Channel Nat where
  receiver := .hundredSteps
  outlet := { machine := 0, capturing := true, calls := [] }

/-- The line `X5` is stored in a file. -/
theorem captures_move :
    Captures Machine.tally writing [[88, 53]]
      (writing.pushAll Machine.tally (Line.ofBytes [88, 53, 10])
        ([88, 53] ++ [Byte.lineFeed])).1 :=
  Captures.cons _ (Receiver.atLineStart_new _ _) rfl (by decide) rfl
    (by decide) (Captures.nil _)

/-- Whether storing `X5` shows afterwards turns on the coordinate from before it. -/
theorem captures_target_move :
    let after :=
      (writing.pushAll Machine.tally (Line.ofBytes [88, 53, 10])
        ([88, 53] ++ [Byte.lineFeed])).1
    after.receiver.command.settings = writing.receiver.command.settings ∧
      (after.receiver.command.target = writing.receiver.command.target ↔
        writing.receiver.command.KeepsTarget writing.receiver.scale
          (entries [[88, 53]])) ∧
      ((∀ later,
          (after.receiver.deliveries Receiver.keep later).map (·.2.target) =
            (writing.receiver.deliveries Receiver.keep later).map
              (·.2.target)) ↔
        writing.receiver.command.KeepsTarget writing.receiver.scale
          (entries [[88, 53]])) :=
  captures_target Machine.tally captures_move

/-- Storing a line may move the machine later on: the coordinate of `X5` stays. -/
theorem not_always_undisturbed :
    ¬ ∀ (channel after : Channel Nat) (text : List UInt8),
        Captures Machine.tally channel [text] after →
        after.receiver.command.target = channel.receiver.command.target := by
  intro undisturbed
  have same := undisturbed _ _ _ captures_move
  exact absurd same (by decide)

end Channel

end GcodeLink
