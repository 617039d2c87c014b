import GcodeLink.Proofs.Receiver.Lines

/-!
# The lines of a run

Bytes arrive one at a time, each with whoever is listening at that moment, so
that every line may be handed to a listener of its own.  `receptions` lists the
lines that end while bytes arrive, with the receiver before and after each.
`History` says the same line by line: every line was read from its start as a
whole, and the next one starts from what its listener gave back.
-/

namespace GcodeLink

/-- A byte that arrives, with the listener to which a line that it ends is handed. -/
structure Arrival where
  byte : UInt8
  listener : Verdict → Command → Command

/-- A line that was received, between the receivers that it found and left. -/
structure Reception where
  before : Receiver
  line : List UInt8
  verdict : Verdict
  /-- The record as it was handed to the listener. -/
  record : Command
  after : Receiver

namespace Receiver

/-- The lines that end while bytes arrive, when `line` was read since `before`. -/
def receptionsFrom (before : Receiver) (line : List UInt8) (receiver : Receiver) :
    List Arrival → List Reception
  | [] => []
  | arrival :: rest =>
      let absorbed := receiver.absorb arrival.byte
      let after := receiver.push arrival.listener arrival.byte
      if Byte.isTerminator arrival.byte then
        { before
          line
          verdict := absorbed.verdict
          record := absorbed.delivered
          after } ::
          receptionsFrom after [] after rest
      else
        receptionsFrom before (line ++ [arrival.byte]) after rest

/-- The lines that end while bytes arrive, the oldest first. -/
def receptions (receiver : Receiver) (arrivals : List Arrival) : List Reception :=
  receptionsFrom receiver [] receiver arrivals

/-- What is handed over along a run is what is received, if all lines have the same listener. -/
theorem deliveries_receptionsFrom
    (listener : Verdict → Command → Command)
    (before : Receiver) (line : List UInt8) (receiver : Receiver)
    (bytes : List UInt8) :
    (receptionsFrom before line receiver
        (bytes.map fun byte => { byte, listener })).map
        (fun reception => (reception.verdict, reception.record)) =
      receiver.deliveries listener bytes := by
  induction bytes generalizing before line receiver with
  | nil =>
      rfl
  | cons byte rest ih =>
      rw [List.map_cons, receptionsFrom, deliveries]
      split
      · rw [List.map_cons, ih]
        rfl
      · exact ih _ _ _

/-- The reception of a whole line. -/
def receive
    (receiver : Receiver) (listener : Verdict → Command → Command)
    (line : List UInt8) (terminator : UInt8) : Reception where
  before := receiver
  line
  verdict := (receiver.complete line terminator).verdict
  record := (receiver.complete line terminator).delivered
  after :=
    (receiver.complete line terminator).nextLine
      (listener (receiver.complete line terminator).verdict
        (receiver.complete line terminator).delivered)

@[simp]
theorem policy_after_receive
    (receiver : Receiver) (listener : Verdict → Command → Command)
    (line : List UInt8) (terminator : UInt8) :
    (receiver.receive listener line terminator).after.policy =
      receiver.policy :=
  policy_complete receiver line terminator

@[simp]
theorem scale_after_receive
    (receiver : Receiver) (listener : Verdict → Command → Command)
    (line : List UInt8) (terminator : UInt8) :
    (receiver.receive listener line terminator).after.scale =
      receiver.scale :=
  scale_complete receiver line terminator

/--
Lines that follow one another from a receiver at the start of a line on, each
received as a whole and handed to one of the allowed listeners.
-/
inductive History (allowed : (Verdict → Command → Command) → Prop) :
    Receiver → List Reception → Prop where
  | nil (receiver : Receiver) :
      History allowed receiver []
  | cons
      {receiver : Receiver} {listener : Verdict → Command → Command}
      {line : List UInt8} {terminator : UInt8} {rest : List Reception}
      (start : receiver.AtLineStart)
      (plain : Byte.Unterminated line)
      (ends : Byte.isTerminator terminator = true)
      (permitted : allowed listener)
      (later :
        History allowed (receiver.receive listener line terminator).after rest) :
      History allowed receiver
        (receiver.receive listener line terminator :: rest)

theorem history_receptionsFrom
    {allowed : (Verdict → Command → Command) → Prop}
    {before : Receiver} (start : before.AtLineStart)
    {line : List UInt8} (plain : Byte.Unterminated line)
    {arrivals : List Arrival}
    (permitted : ∀ arrival ∈ arrivals, allowed arrival.listener) :
    History allowed before
      (receptionsFrom before line (before.absorbAll line) arrivals) := by
  induction arrivals generalizing before line with
  | nil =>
      exact History.nil before
  | cons arrival rest ih =>
      obtain ⟨first, others⟩ := List.forall_mem_cons.mp permitted
      have longer :
          (before.absorbAll line).absorb arrival.byte =
            before.absorbAll (line ++ [arrival.byte]) := by
        rw [absorbAll_append]
        rfl
      rw [receptionsFrom]
      split
      · next ends =>
          have received :
              (before.absorbAll line).push arrival.listener arrival.byte =
                (before.receive arrival.listener line arrival.byte).after := by
            rw [push, if_pos ends, longer]
            rfl
          rw [received, longer]
          exact
            History.cons start plain ends first
              (ih (atLineStart_nextLine _ _) Byte.unterminated_nil others)
      · next inside =>
          rw [push_of_not_terminator arrival.listener _
            (Bool.eq_false_iff.mpr inside), longer]
          exact ih start (Byte.unterminated_concat plain inside) others

/-- From the start of a line on, the lines of a run are received one after the other. -/
theorem history_receptions
    {allowed : (Verdict → Command → Command) → Prop}
    {receiver : Receiver} (start : receiver.AtLineStart)
    {arrivals : List Arrival}
    (permitted : ∀ arrival ∈ arrivals, allowed arrival.listener) :
    History allowed receiver (receiver.receptions arrivals) :=
  history_receptionsFrom start Byte.unterminated_nil permitted

end Receiver

end GcodeLink
