import GcodeLink.Proofs.Acknowledgement
import GcodeLink.Proofs.Channel.Lines
import GcodeLink.Proofs.Judgement

/-!
# Asking for a line again

When a line is rejected, most of it has already been applied: its letters, its
numbers and its filename are in the record, and the line may be one of a file.
None of this goes any further.  The host is told what was wrong and which line
is awaited, in that order, and that is all that happens: nothing is executed or
stored, and the settings, the numbering, the mode and the buffer of the line are
those from before it.

A line is followed here through the single bytes that make it up, each with its
own buffer, so that it does not matter in what pieces it arrived or what the
channel had read before.
-/

namespace GcodeLink

/-! ## What the bytes of a line leave alone -/

namespace Receiver

/--
What the fields of a line do not write is overlooked, if the filename does not
write it either.
-/
theorem overlooks_of_blind
    {α : Type} {project : Command → α} (blind : Command.Blind project)
    (filename : ∀ (command : Command) (filename : Filename),
      project { command with filename } = project command) :
    Overlooks fun receiver => project receiver.command where
  phase _ _ := rfl
  start receiver field := blind.start receiver.command field
  settle receiver scale field value :=
    blind.settle receiver.command scale field value
  filename receiver name := filename receiver.command name

theorem settings_absorb (receiver : Receiver) (raw : UInt8) :
    (receiver.absorb raw).command.settings = receiver.command.settings :=
  (overlooks_of_blind Command.blind_settings fun _ _ => rfl).absorb
    (fun _ _ => rfl) receiver raw

theorem expected_absorb (receiver : Receiver) (raw : UInt8) :
    (receiver.absorb raw).command.expected = receiver.command.expected :=
  (overlooks_of_blind Command.blind_expected fun _ _ => rfl).absorb
    (fun _ _ => rfl) receiver raw

end Receiver

variable {State : Type}

/-! ## Refusing a line -/

namespace Outlet

/-- A refused line is not shown to the machine. -/
@[simp]
theorem machine_refuse
    (outlet : Outlet State) (fault : Fault) (command : Command) :
    (outlet.refuse fault command).machine = outlet.machine := by
  cases fault <;> rfl

/-- A rejected line is refused; its record and its buffer stay as they are. -/
theorem route_rejected
    (operations : Machine State) (outlet : Outlet State) (fault : Fault)
    (command : Command) (line : Line) :
    outlet.route operations (.rejected fault) command line =
      { outlet := outlet.refuse fault command, command, line } :=
  rfl

end Outlet

namespace Channel

/-- The act pushes a byte that does not end a line. -/
def Act.Inside : Act → Prop
  | .push _ byte => Byte.isTerminator byte = false
  | .refuse => False

instance : DecidablePred Act.Inside
  | .push _ byte =>
      inferInstanceAs (Decidable (Byte.isTerminator byte = false))
  | .refuse => inferInstanceAs (Decidable False)

/--
Between these two channels nothing happened but that the host was told of this
fault and asked for the awaited line.
-/
structure AsksAgain (before after : Channel State) (fault : Fault) : Prop where
  calls : ∃ reply,
    after.outlet.calls =
        before.outlet.calls ++
          [.reply reply, .reply (.resend before.receiver.command.expected)] ∧
      ((fault = .badLineNumber before.receiver.command.expected ∧
          reply = .expectedLineNumber before.receiver.command.expected) ∨
        ∃ sum,
          fault = .badChecksum sum ∧ reply = .expectedChecksum sum)
  machine : after.outlet.machine = before.outlet.machine
  capturing : after.outlet.capturing = before.outlet.capturing
  settings :
    after.receiver.command.settings = before.receiver.command.settings
  expected :
    after.receiver.command.expected = before.receiver.command.expected

variable (operations : Machine State)

/-- Inside a line the outlet, the settings and the numbering stand still. -/
theorem performAll_of_inside
    (channel : Channel State) {inside : List Act}
    (goesOn : ∀ act ∈ inside, act.Inside) :
    (channel.performAll operations inside).outlet = channel.outlet ∧
      (channel.performAll operations inside).receiver.command.settings =
        channel.receiver.command.settings ∧
      (channel.performAll operations inside).receiver.command.expected =
        channel.receiver.command.expected := by
  induction inside generalizing channel with
  | nil =>
      exact ⟨rfl, rfl, rfl⟩
  | cons act rest ih =>
      rw [List.forall_mem_cons] at goesOn
      obtain ⟨here, later⟩ := goesOn
      cases act with
      | refuse =>
          exact here.elim
      | push line byte =>
          obtain ⟨outlet, settings, expected⟩ :=
            ih (channel.perform operations (.push line byte)) later
          rw [performAll_cons, outlet, settings, expected,
            perform_of_inside operations channel line here]
          exact
            ⟨rfl, channel.receiver.settings_absorb byte,
              channel.receiver.expected_absorb byte⟩

/-- The terminator of a rejected line makes two replies and changes nothing else. -/
theorem asksAgain_push
    (channel : Channel State) (line : Line) {terminator : UInt8}
    (ends : Byte.isTerminator terminator = true) {fault : Fault}
    (rejected :
      (channel.receiver.absorb terminator).verdict = .rejected fault) :
    channel.AsksAgain (channel.push operations line terminator).1 fault ∧
      (channel.push operations line terminator).2 = line := by
  have settings := channel.receiver.settings_absorb terminator
  have expected := channel.receiver.expected_absorb terminator
  rw [push, if_pos ends, rejected, Outlet.route_rejected,
    Receiver.delivered_of_rejected rejected]
  refine ⟨?_, rfl⟩
  constructor
  case calls =>
    rw [Outlet.calls_refuse, expected]
    obtain faulty | faulty := Policy.fault_of_judge rejected
    · rw [expected] at faulty
      subst faulty
      exact ⟨_, rfl, Or.inl ⟨rfl, rfl⟩⟩
    · subst faulty
      exact ⟨_, rfl, Or.inr ⟨_, rfl, rfl⟩⟩
  case machine =>
    exact channel.outlet.machine_refuse fault _
  case capturing =>
    exact channel.outlet.capturing_refuse fault _
  case settings =>
    exact settings
  case expected =>
    exact expected

/-- The bytes of a text are pushed one by one, each with the buffer of the line. -/
theorem performAll_map_push
    (channel : Channel State) (line : Line) {text : List UInt8}
    (plain : Byte.Unterminated text) :
    channel.performAll operations (text.map (.push line)) =
      (channel.pushAll operations line text).1 := by
  induction text generalizing channel with
  | nil =>
      rfl
  | cons byte rest ih =>
      obtain ⟨inside, later⟩ := Byte.unterminated_cons.mp plain
      rw [List.map_cons, performAll_cons, ih _ later, pushAll_cons, perform,
        push_of_not_terminator operations channel line inside]

/-- Bytes that are pushed from one buffer find it at the terminator as it was. -/
theorem pushAll_eq_push
    (channel : Channel State) (line : Line) {text : List UInt8}
    (plain : Byte.Unterminated text) (terminator : UInt8) :
    channel.pushAll operations line (text ++ [terminator]) =
      (channel.performAll operations (text.map (.push line))).push operations
        line terminator := by
  rw [pushAll_append, performAll_map_push operations channel line plain,
    pushAll_of_unterminated operations channel line plain]
  rfl

/--
A rejected line makes the two replies that ask for it again and does nothing
else, whatever it holds and whatever the channel is doing.  Its bytes may come
from one buffer, which is left as it was, and the line may come whole: it is
closed in its buffer, if it is not a closed line already, and then goes the same
way.
-/
theorem asksAgain_of_rejected
    (channel : Channel State) {inside : List Act}
    (goesOn : ∀ act ∈ inside, act.Inside)
    (line : Line) {terminator : UInt8}
    (ends : Byte.isTerminator terminator = true) {fault : Fault}
    (rejected :
      ((channel.performAll operations inside).receiver.absorb
        terminator).verdict = .rejected fault) :
    channel.AsksAgain
        ((channel.performAll operations inside).push operations line
          terminator).1 fault ∧
      ((channel.performAll operations inside).push operations line
          terminator).2 = line ∧
        ∀ text, inside = text.map (.push line) →
          channel.pushAll operations line (text ++ [terminator]) =
              (channel.performAll operations inside).push operations line
                terminator ∧
            (line.bytes = text ++ [terminator] →
              line.close? = some line ∧
                ∀ given : Line,
                  given.isEmpty = false → given.close? = some line →
                    channel.pushLine operations given =
                      (channel.performAll operations inside).push operations
                        line terminator) := by
  obtain ⟨outlet, settings, expected⟩ :=
    performAll_of_inside operations channel goesOn
  obtain ⟨asks, buffer⟩ :=
    asksAgain_push operations (channel.performAll operations inside) line ends
      rejected
  refine ⟨?_, buffer, ?_⟩
  · constructor
    case calls =>
      rw [← outlet, ← expected]
      exact asks.calls
    case machine =>
      rw [← outlet]
      exact asks.machine
    case capturing =>
      rw [← outlet]
      exact asks.capturing
    case settings =>
      exact asks.settings.trans settings
    case expected =>
      exact asks.expected.trans expected
  · rintro text rfl
    have plain : Byte.Unterminated text := by
      intro byte member
      exact goesOn (.push line byte) (List.mem_map_of_mem member)
    have together := channel.pushAll_eq_push operations line plain terminator
    refine ⟨together, ?_⟩
    intro held
    refine ⟨Line.close?_of_terminated held plain ends, ?_⟩
    intro given filled closes
    rw [channel.pushLine_of_close? operations filled closes, held, together]

/-- A channel that demands line numbers, awaits the first and is writing a file. -/
def awaitingFirst : Channel Nat where
  receiver := .new ⟨true, false, false, false⟩ .zero
  outlet := { machine := 0, capturing := true, calls := [] }

/-- The line `N1M29` comes out of sequence, so the file is not closed. -/
theorem asksAgain_of_rejected_endOfFile :
    awaitingFirst.AsksAgain
        ((awaitingFirst.performAll .tally
          ([78, 49, 77, 50, 57].map (.push .empty))).push .tally .empty
            Byte.lineFeed).1 (.badLineNumber 0) ∧
      ((awaitingFirst.performAll .tally
          ([78, 49, 77, 50, 57].map (.push .empty))).push .tally .empty
            Byte.lineFeed).2 = .empty := by
  have goesOn :
      ∀ act ∈ [78, 49, 77, 50, 57].map (Act.push .empty), act.Inside := by
    decide
  have rejected :
      ((awaitingFirst.performAll .tally
          ([78, 49, 77, 50, 57].map (.push .empty))).receiver.absorb
            Byte.lineFeed).verdict = .rejected (.badLineNumber 0) := by
    decide
  obtain ⟨asks, buffer, _⟩ :=
    asksAgain_of_rejected .tally awaitingFirst goesOn .empty
      (by decide : Byte.isTerminator Byte.lineFeed = true) rejected
  exact ⟨asks, buffer⟩

end Channel

end GcodeLink
