import GcodeLink.Proofs.Channel.Requests
import GcodeLink.Proofs.Outlet

/-!
# One reply to each line

A host learns from the replies how far it may send on, so that one reply missing
or one too many leaves the two sides waiting or out of step.  Every accepted
line is answered once, whatever becomes of it, unless its command is executed
and answers the host itself.  Nothing is answered before a line ends, and only a
line that is in order is executed.

Each disposition of a line has its calls; what there is to say about replies and
executed commands is read off them once, and holds of every act of a run.
-/

namespace GcodeLink

variable {State : Type}

namespace Call

/-- The command that a call executes. -/
def executed? : Call → Option Command
  | .process command => some command
  | .create _ _ | .write _ _ | .close _ | .reply _ => none

/-- The commands that are executed, the oldest first. -/
def executions (calls : List Call) : List Command :=
  calls.filterMap executed?

/-- The replies that are sent, the oldest first. -/
def replies (calls : List Call) : List Reply :=
  calls.filterMap reply?

theorem executions_replies (sent : List Reply) :
    executions (sent.map .reply) = [] := by
  rw [executions, List.filterMap_map]
  exact List.filterMap_eq_nil_iff.mpr fun _ _ => rfl

end Call

/-! ## Dispositions -/

namespace Disposition

variable
  (operations : Machine State) (machine : State) (command : Command)
  (line : Line)

/-- Only an executed line makes a command of its record. -/
theorem executions_calls (disposition : Disposition) :
    Call.executions (disposition.calls operations machine command line) =
      if disposition = .execute then [command] else [] := by
  cases disposition with
  | refuse fault =>
      exact Call.executions_replies _
  | execute =>
      rw [calls, if_pos rfl]
      split <;> rfl
  | refuseMalformed | refuseName | beginCapture _ | endCapture | acknowledge
  | store =>
      rfl

/-- Whatever becomes of an accepted line, there is one reply to it or its command gave it. -/
theorem length_replies_calls
    {disposition : Disposition} (goesOn : ∀ fault, disposition ≠ .refuse fault) :
    (Call.replies (disposition.calls operations machine command line)).length =
      if disposition = .execute ∧
          (operations.process machine command).acknowledge = false then
        0
      else 1 := by
  cases disposition with
  | refuse fault =>
      exact absurd rfl (goesOn fault)
  | execute =>
      rw [calls]
      cases (operations.process machine command).acknowledge <;> rfl
  | refuseMalformed | refuseName | beginCapture _ | endCapture | acknowledge
  | store =>
      rfl

end Disposition

namespace Channel

variable (operations : Machine State)

/-! ## The calls of an act -/

/-- The line that an act ends, as it is judged and handed over. -/
def ended? (channel : Channel State) : Act → Option (Verdict × Command)
  | .push _ byte =>
      if Byte.isTerminator byte then
        some
          ((channel.receiver.absorb byte).verdict,
            (channel.receiver.absorb byte).delivered)
      else none
  | .refuse => none

/-- An act that ends a line makes the calls of its disposition. -/
theorem calls_perform_of_ended
    {channel : Channel State} {line : Line} {byte : UInt8}
    {verdict : Verdict} {command : Command}
    (ended : channel.ended? (.push line byte) = some (verdict, command)) :
    (channel.perform operations (.push line byte)).outlet.calls =
      channel.outlet.calls ++
        (Disposition.ofLine channel.outlet.capturing verdict command).calls
          operations channel.outlet.machine command line := by
  rw [ended?] at ended
  split at ended
  · next ends =>
      rw [Option.some.injEq, Prod.mk.injEq] at ended
      obtain ⟨rfl, rfl⟩ := ended
      rw [perform, push, if_pos ends]
      exact channel.outlet.calls_route operations _ _ line
  · cases ended

/-- An act that pushes a byte inside a line makes no call. -/
theorem perform_of_inside
    (channel : Channel State) (line : Line) {byte : UInt8}
    (inside : Byte.isTerminator byte = false) :
    channel.perform operations (.push line byte) =
      { channel with receiver := channel.receiver.absorb byte } := by
  rw [perform, push_of_not_terminator operations channel line inside]

/--
How an act deals with the host and with commands, by the calls that it makes:
an accepted line is answered once or answers for itself, and no other act
executes anything.
-/
structure Acknowledged
    (channel : Channel State) (act : Act) (calls : List Call) : Prop where
  /-- There is one reply to an accepted line, or none if its command gave it. -/
  accepted : ∀ command,
    channel.ended? act = some (.accepted, command) →
      (Call.replies calls).length =
        if Call.executions calls = [command] ∧
            (operations.process channel.outlet.machine command).acknowledge =
              false then
          0
        else 1
  /--
  One command is executed at most: that of an accepted line in order, while no
  file is written.
  -/
  executes :
    Call.executions calls = [] ∨
      ∃ command,
        Call.executions calls = [command] ∧
          channel.ended? act = some (.accepted, command) ∧
          command.malformed = false ∧
          command.mCode? ≠ some 28 ∧
          channel.outlet.capturing = false
  /-- A malformed line is reported as such while no file is written. -/
  malformed : ∀ command,
    channel.ended? act = some (.accepted, command) →
      command.malformed = true →
        channel.outlet.capturing = false →
          calls = [.reply .numberOverflow]
  /-- Inside a line nothing happens. -/
  inside : ∀ line byte,
    act = .push line byte → Byte.isTerminator byte = false → calls = []

/-- The calls of a disposition are those of an act that ends its line. -/
theorem acknowledged_of_ended
    {channel : Channel State} {line : Line} {byte : UInt8}
    {verdict : Verdict} {command : Command}
    (ended : channel.ended? (.push line byte) = some (verdict, command)) :
    channel.Acknowledged operations (.push line byte)
      ((Disposition.ofLine channel.outlet.capturing verdict command).calls
        operations channel.outlet.machine command line) := by
  have executions :=
    Disposition.executions_calls operations channel.outlet.machine command line
      (Disposition.ofLine channel.outlet.capturing verdict command)
  constructor
  case accepted =>
    intro accepted same
    rw [ended, Option.some.injEq, Prod.mk.injEq] at same
    obtain ⟨rfl, rfl⟩ := same
    have alone (executes : Prop) [Decidable executes] :
        (if executes then [command] else []) = [command] ↔ executes := by
      split_ifs with executes <;> simp [executes]
    rw [executions,
      Disposition.length_replies_calls operations _ _ line
        (Disposition.ofLine_accepted_ne_refuse _ command)]
    simp only [alone]
  case executes =>
    rw [executions]
    split_ifs with executes
    · obtain ⟨rfl, idle, converted, other⟩ :=
        Disposition.ofLine_eq_execute_iff.mp executes
      exact Or.inr ⟨command, rfl, ended, converted, other, idle⟩
    · exact Or.inl rfl
  case malformed =>
    intro accepted same malformed executing
    rw [ended, Option.some.injEq, Prod.mk.injEq] at same
    obtain ⟨rfl, rfl⟩ := same
    rw [executing, Disposition.ofLine_not_writing, Disposition.executing,
      if_pos malformed]
    rfl
  case inside =>
    intro _ _ same inside
    obtain ⟨rfl, rfl⟩ := Act.push.inj same
    rw [ended?, inside] at ended
    cases ended

/-- An act that ends no line executes nothing, and has nothing to acknowledge. -/
theorem acknowledged_of_not_ended
    {channel : Channel State} {act : Act} {calls : List Call}
    (goesOn : channel.ended? act = none)
    (executions : Call.executions calls = [])
    (inside : ∀ line byte,
      act = .push line byte → Byte.isTerminator byte = false → calls = []) :
    channel.Acknowledged operations act calls where
  accepted _ ended := by
    rw [goesOn] at ended
    cases ended
  executes := Or.inl executions
  malformed _ ended := by
    rw [goesOn] at ended
    cases ended
  inside := inside

/-- Every act makes calls that acknowledge what it does. -/
theorem acknowledged_perform (channel : Channel State) (act : Act) :
    ∃ calls,
      (channel.perform operations act).outlet.calls =
          channel.outlet.calls ++ calls ∧
        channel.Acknowledged operations act calls := by
  cases act with
  | refuse =>
      exact
        ⟨[.reply .lineTooLong], channel.outlet.calls_refuse .lineTooLong channel.receiver.command,
          acknowledged_of_not_ended operations rfl rfl nofun⟩
  | push line byte =>
      cases ended : channel.ended? (.push line byte) with
      | some judged =>
          exact
            ⟨_, calls_perform_of_ended operations ended,
              acknowledged_of_ended operations ended⟩
      | none =>
          have inside : Byte.isTerminator byte = false := by
            rw [← Bool.not_eq_true]
            intro ends
            rw [ended?, if_pos ends] at ended
            cases ended
          refine
            ⟨[], ?_,
              acknowledged_of_not_ended operations ended rfl
                fun _ _ _ _ => rfl⟩
          rw [perform_of_inside operations channel line inside,
            List.append_nil]

/-- A run reads a byte inside a line and does nothing yet. -/
theorem channel_step_of_inside
    (run : Run State) {byte : UInt8} (inside : Byte.isTerminator byte = false) :
    (run.step operations (.byte byte)).channel = run.channel := by
  rw [Run.step, Framer.step, inside]
  split <;> rfl

/--
However a channel is used, its calls are those of the acts it comes down to,
and every act is acknowledged as it should be.
-/
theorem serveAll_acknowledged
    (channel : Channel State) (requests : List Request) :
    channel.performAll operations (acts operations channel requests) =
        channel.serveAll operations requests ∧
      (∃ calls,
        (channel.serveAll operations requests).outlet.calls =
            channel.outlet.calls ++ calls ∧
          Accounts operations (Acknowledged operations) channel
            (acts operations channel requests) calls) ∧
      ∀ (run : Run State) (byte : UInt8), Byte.isTerminator byte = false →
        (run.step operations (.byte byte)).channel = run.channel := by
  have reduced := performAll_acts operations channel requests
  refine ⟨reduced, ?_, fun run _ => channel_step_of_inside operations run⟩
  rw [← reduced]
  exact
    accounts_performAll (acknowledged_perform operations) channel _

end Channel

end GcodeLink
