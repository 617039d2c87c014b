import GcodeLink.Proofs.Receiver.Absorb
import GcodeLink.Proofs.Receiver.Tandem

/-!
# Lines on their way to the listener

Bytes that do not end a line are absorbed and nothing else; the terminator
hands the line over and starts the next one.  `deliveries` lists what the
listener is handed along a run, which is all that it is asked about, and
`complete` is the receiver that has read a line with its terminator and is about
to hand it over.
-/

namespace GcodeLink

theorem Command.advance_withSum (command : Command) (sum : UInt8) :
    (command.withSum sum).advance = command.advance.withSum sum := by
  have numbered :
      (command.withSum sum).seen.lineNumber = command.seen.lineNumber :=
    rfl
  rw [advance, advance, numbered]
  split
  · rfl
  · rfl

namespace Receiver

variable (listener : Verdict → Command → Command)

/-- What the listener is handed while bytes are read, the oldest line first. -/
def deliveries : Receiver → List UInt8 → List (Verdict × Command)
  | _, [] => []
  | receiver, byte :: rest =>
      (if Byte.isTerminator byte then
          [((receiver.absorb byte).verdict, (receiver.absorb byte).delivered)]
        else []) ++
        deliveries (receiver.push listener byte) rest

/-- The receiver that has read a line and is about to hand it over. -/
def complete (receiver : Receiver) (line : List UInt8) (terminator : UInt8) :
    Receiver :=
  receiver.absorbAll (line ++ [terminator])

@[simp]
theorem policy_complete
    (receiver : Receiver) (line : List UInt8) (terminator : UInt8) :
    (receiver.complete line terminator).policy = receiver.policy :=
  policy_absorbAll receiver _

@[simp]
theorem scale_complete
    (receiver : Receiver) (line : List UInt8) (terminator : UInt8) :
    (receiver.complete line terminator).scale = receiver.scale :=
  scale_absorbAll receiver _

@[simp]
theorem scale_nextLine (receiver : Receiver) (command : Command) :
    (receiver.nextLine command).scale = receiver.scale :=
  rfl

/-! ## Inside a line -/

theorem push_of_not_terminator
    (receiver : Receiver) {byte : UInt8}
    (inside : Byte.isTerminator byte = false) :
    receiver.push listener byte = receiver.absorb byte := by
  simp [push, inside]

theorem pushAll_of_unterminated
    (receiver : Receiver) {bytes : List UInt8}
    (plain : Byte.Unterminated bytes) :
    receiver.pushAll listener bytes = receiver.absorbAll bytes := by
  induction bytes generalizing receiver with
  | nil =>
      rfl
  | cons byte rest ih =>
      rw [Byte.unterminated_cons] at plain
      rw [pushAll_cons, push_of_not_terminator listener receiver plain.1,
        ih _ plain.2, absorbAll_cons]

theorem deliveries_append
    (receiver : Receiver) (front rest : List UInt8) :
    receiver.deliveries listener (front ++ rest) =
      receiver.deliveries listener front ++
        (receiver.pushAll listener front).deliveries listener rest := by
  induction front generalizing receiver with
  | nil =>
      rfl
  | cons byte front ih =>
      rw [List.cons_append, deliveries, ih, deliveries, List.append_assoc,
        pushAll_cons]

theorem deliveries_of_unterminated
    (receiver : Receiver) {bytes : List UInt8}
    (plain : Byte.Unterminated bytes) :
    receiver.deliveries listener bytes = [] := by
  induction bytes generalizing receiver with
  | nil =>
      rfl
  | cons byte rest ih =>
      rw [Byte.unterminated_cons] at plain
      rw [deliveries, plain.1, ih _ plain.2]
      rfl

/-! ## What the listener decides -/

/--
A listener is consulted for the lines that are listed and for nothing else: with
another one that gives back the same for each of them, the receiver does the
same and hands over the same.
-/
theorem pushAll_congr
    {listener other : Verdict → Command → Command}
    {receiver : Receiver} {bytes : List UInt8}
    (agree :
      ∀ handed ∈ receiver.deliveries listener bytes,
        listener handed.1 handed.2 = other handed.1 handed.2) :
    receiver.pushAll listener bytes = receiver.pushAll other bytes ∧
      receiver.deliveries listener bytes = receiver.deliveries other bytes := by
  induction bytes generalizing receiver with
  | nil =>
      exact ⟨rfl, rfl⟩
  | cons byte rest ih =>
      rw [deliveries, List.forall_mem_append] at agree
      obtain ⟨first, later⟩ := agree
      have same : receiver.push listener byte = receiver.push other byte := by
        rw [push, push]
        split
        · next ends =>
            rw [if_pos ends, List.forall_mem_singleton] at first
            rw [first]
        · rfl
      obtain ⟨pushed, handed⟩ := ih later
      rw [pushAll_cons, pushAll_cons, deliveries, deliveries, ← same]
      exact ⟨pushed, congrArg _ handed⟩

/-! ## A whole line -/

/-- A terminator closes the field that is open. -/
theorem open?_absorb_of_isTerminator
    (receiver : Receiver) {terminator : UInt8}
    (ends : Byte.isTerminator terminator = true) :
    (receiver.absorb terminator).phase.open? = none := by
  rw [absorb_eq]
  change (receiver.step terminator).phase.open? = none
  rw [step_of_isTerminator receiver ends, atTerminator]
  cases inPhase : receiver.phase with
  | comment comment =>
      exact congrArg Phase.open? inPhase
  | idle | field _ _ | filename =>
      rfl

/-- A line is handed over once, and the next one starts from what the listener gives back. -/
theorem pushAll_line
    (receiver : Receiver) {line : List UInt8} {terminator : UInt8}
    (plain : Byte.Unterminated line)
    (ends : Byte.isTerminator terminator = true) :
    receiver.pushAll listener (line ++ [terminator]) =
      (receiver.complete line terminator).nextLine
        (listener (receiver.complete line terminator).verdict
          (receiver.complete line terminator).delivered) := by
  rw [pushAll_append, pushAll_of_unterminated listener receiver plain,
    pushAll_cons, pushAll_nil, push, if_pos ends, complete, absorbAll_append,
    absorbAll_cons, absorbAll_nil]

theorem deliveries_line
    (receiver : Receiver) {line : List UInt8} {terminator : UInt8}
    (plain : Byte.Unterminated line)
    (ends : Byte.isTerminator terminator = true) :
    receiver.deliveries listener (line ++ [terminator]) =
      [((receiver.complete line terminator).verdict,
        (receiver.complete line terminator).delivered)] := by
  rw [deliveries_append, deliveries_of_unterminated listener receiver plain,
    pushAll_of_unterminated listener receiver plain, deliveries, if_pos ends,
    deliveries, complete, absorbAll_append, absorbAll_cons, absorbAll_nil]
  rfl

/-- Handing a line over changes nothing in its record but the awaited number. -/
theorem project_delivered
    {α : Type} (project : Command → α)
    (blind :
      ∀ (command : Command) (expected : UInt32),
        project { command with expected } = project command)
    (receiver : Receiver) :
    project receiver.delivered = project receiver.command := by
  rw [delivered]
  split
  · rw [Command.advance]
    split
    · exact blind _ _
    · rfl
  · rfl

@[simp]
theorem seen_delivered (receiver : Receiver) :
    receiver.delivered.seen = receiver.command.seen :=
  project_delivered (·.seen) (fun _ _ => rfl) receiver

@[simp]
theorem sum_delivered (receiver : Receiver) :
    receiver.delivered.sum = receiver.command.sum :=
  project_delivered (·.sum) (fun _ _ => rfl) receiver

@[simp]
theorem settings_delivered (receiver : Receiver) :
    receiver.delivered.settings = receiver.command.settings :=
  project_delivered (·.settings) (fun _ _ => rfl) receiver

@[simp]
theorem target_delivered (receiver : Receiver) :
    receiver.delivered.target = receiver.command.target :=
  project_delivered (·.target) (fun _ _ => rfl) receiver

/-- A rejected line leaves the awaited number alone. -/
theorem delivered_of_rejected
    {receiver : Receiver} {fault : Fault}
    (rejected : receiver.verdict = .rejected fault) :
    receiver.delivered = receiver.command := by
  rw [delivered, rejected]

/-! ## Lines that differ in their sums -/

section Sums

variable
  {receiver other : Receiver}
  (same : other.withSum receiver.command.sum = receiver)

include same

/-- Handed over, they differ in their sums and in the awaited number at most. -/
theorem project_delivered_of_withSum
    {α : Type} (project : Command → α)
    (blind :
      ∀ (command : Command) (sum : UInt8) (expected : UInt32),
        project { command with sum, expected } = project command) :
    project other.delivered = project receiver.delivered := by
  have awaited (command : Command) (expected : UInt32) :
      project { command with expected } = project command :=
    blind command command.sum expected
  have record :
      other.command.withSum receiver.command.sum = receiver.command :=
    congrArg Receiver.command same
  rw [project_delivered project awaited, project_delivered project awaited,
    ← record]
  exact (blind other.command _ other.command.expected).symm

theorem delivered_of_withSum :
    { other.delivered with
        sum := receiver.delivered.sum
        expected := receiver.delivered.expected } =
      receiver.delivered :=
  project_delivered_of_withSum same
    (fun command =>
      { command with
        sum := receiver.delivered.sum
        expected := receiver.delivered.expected })
    fun _ _ _ => rfl

/-- If they are judged alike, they differ in their sums alone. -/
theorem withSum_delivered
    (judged : other.verdict.isAccepted = receiver.verdict.isAccepted) :
    other.delivered.withSum receiver.delivered.sum = receiver.delivered := by
  have record :
      other.command.withSum receiver.command.sum = receiver.command :=
    congrArg Receiver.command same
  rw [sum_delivered, delivered, delivered]
  cases here : receiver.verdict with
  | accepted =>
      cases there : other.verdict with
      | accepted =>
          dsimp only
          rw [← Command.advance_withSum, record]
      | rejected fault =>
          rw [here, there] at judged
          cases judged
  | rejected fault =>
      cases there : other.verdict with
      | accepted =>
          rw [here, there] at judged
          cases judged
      | rejected fault =>
          exact record

end Sums

end Receiver

end GcodeLink
