import GcodeLink.Proofs.Command.Agreement
import GcodeLink.Proofs.Receiver.Invariant

/-!
# Displacements

In relative mode a coordinate is a displacement, and one that a line does not
give is none.  Lines share one target, and the fields of a line are stored there
before it is known whether the line is any good.  So a displacement could be
handed over again with a later line.

It is not, because the record is made ready for the next line only after the
listener has given it back, in whatever mode it is then.  That a displacement
starts from zero holds at every start of a line for this reason alone, and
whatever the lines before have left in the target.
-/

namespace GcodeLink

/-- In relative mode there is no displacement yet. -/
def Command.AtOrigin (command : Command) : Prop :=
  command.settings.relative = true →
    ∀ axis, command.target.position.get axis = 0

theorem Command.atOrigin_initial : initial.AtOrigin := by
  intro relative
  cases relative

/-- The next line starts without a displacement, in the mode that the record is left in. -/
theorem Command.atOrigin_nextLine (command : Command) :
    command.nextLine.AtOrigin := by
  intro relative axis
  rw [settings_nextLine] at relative
  rw [nextLine, if_pos relative]
  exact PerAxis.get_fill 0 axis

/--
In relative mode every coordinate of a line is the last one on that line that
could be converted, and zero if there is none.
-/
def Reception.Displaces (reception : Reception) (scale : Scale) : Prop :=
  reception.record.settings.relative = true →
    ∀ axis,
      reception.record.target.position.get axis =
        lastNumber
          (Entry.conversions Int32 scale reception.record.settings.inches
            (.axis axis) (Part.entries (Part.ofBytes reception.line))) 0

namespace Receiver

/-! ## One line -/

/-- A line that starts without a displacement is handed over with its own. -/
theorem displaces_receive
    {receiver : Receiver} (start : receiver.AtLineStart)
    (origin : receiver.command.AtOrigin)
    (listener : Verdict → Command → Command) (line : List UInt8)
    {terminator : UInt8} (ends : Byte.isTerminator terminator = true) :
    (receiver.receive listener line terminator).record.settings =
        receiver.command.settings ∧
      (receiver.receive listener line terminator).Displaces receiver.scale := by
  have reads := (reads_delivered start line ends).entries
  refine ⟨reads.settings, ?_⟩
  intro relative axis
  have settings :
      (receiver.receive listener line terminator).record.settings =
        receiver.command.settings :=
    reads.settings
  rw [settings] at relative ⊢
  have number := (reads.axis axis).slot
  rw [origin relative axis] at number
  exact number

/-! ## Every line -/

/-- Every line of a history starts without a displacement and is handed over with its own. -/
theorem History.displaces
    {allowed : (Verdict → Command → Command) → Prop}
    {receiver : Receiver} {receptions : List Reception}
    (history : History allowed receiver receptions)
    (origin : receiver.command.AtOrigin) :
    ∀ reception ∈ receptions,
      reception.record.settings = reception.before.command.settings ∧
        reception.Displaces receiver.scale := by
  induction history with
  | nil receiver =>
      exact List.forall_mem_nil _
  | @cons receiver listener line terminator rest start plain ends permitted
      later ih =>
      rw [List.forall_mem_cons]
      constructor
      · exact displaces_receive start origin listener line ends
      · rw [← scale_after_receive receiver listener line terminator]
        exact ih (Command.atOrigin_nextLine _)

/-- After whole lines a receiver is at the start of a line, without a displacement. -/
theorem atOrigin_arrive
    {receiver : Receiver} (start : receiver.AtLineStart)
    (origin : receiver.command.AtOrigin) {arrivals : List Arrival}
    (whole : ∀ last ∈ arrivals.getLast?,
      Byte.isTerminator last.byte = true) :
    (receiver.arrive arrivals).AtLineStart ∧
      (receiver.arrive arrivals).command.AtOrigin := by
  induction arrivals using List.reverseRecOn with
  | nil =>
      exact ⟨start, origin⟩
  | append_singleton arrivals last _ =>
      have ends : Byte.isTerminator last.byte = true := by
        apply whole
        rw [List.getLast?_concat]
        exact Option.mem_some_self last
      rw [arrive, List.foldl_concat]
      refine ⟨atLineStart_push last.listener _ ends, ?_⟩
      rw [push, if_pos ends]
      exact Command.atOrigin_nextLine _

/--
No displacement is carried over, whatever bytes arrive and however the listeners
change the modes.  At every start of a line in relative mode all coordinates are
zero.  A line is handed over in the mode in which it was received; and if that
is relative mode, each of its coordinates is what the last field of that axis on
that line comes to that could be converted, and zero if there is none.
-/
theorem receptions_displaced
    (policy : Policy) (scale : Scale) (arrivals : List Arrival) :
    ((∀ last ∈ arrivals.getLast?, Byte.isTerminator last.byte = true) →
        ((new policy scale).arrive arrivals).AtLineStart ∧
          ((new policy scale).arrive arrivals).command.AtOrigin) ∧
      ∀ reception ∈ (new policy scale).receptions arrivals,
        reception.record.settings = reception.before.command.settings ∧
          reception.Displaces scale := by
  have start := atLineStart_new policy scale
  constructor
  · exact atOrigin_arrive start Command.atOrigin_initial
  · have history : History (fun _ => True) (new policy scale)
        ((new policy scale).receptions arrivals) :=
      history_receptions start fun _ _ => trivial
    exact history.displaces Command.atOrigin_initial

/--
The lines `X1` and `Y2` arrive, and the first is answered by the change to
relative mode: its coordinate is not there any more when the second is received.
-/
theorem receptions_displaced_lines :
    let listener : Verdict → Command → Command :=
      fun _ command =>
        { command with settings := { command.settings with relative := true } }
    let arrivals : List Arrival :=
      [88, 49, 10, 89, 50, 10].map fun byte => { byte, listener }
    ((new .lenient .zero).arrive arrivals).AtLineStart ∧
      ((new .lenient .zero).arrive arrivals).command.AtOrigin ∧
      ((new .lenient .zero).receptions arrivals).map
          (·.record.settings.relative) = [false, true] := by
  intro listener arrivals
  obtain ⟨start, origin⟩ :=
    (receptions_displaced .lenient .zero arrivals).1 (by decide)
  exact ⟨start, origin, by decide⟩

end Receiver

end GcodeLink
