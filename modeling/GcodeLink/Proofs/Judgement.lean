import GcodeLink.Proofs.Checksum

/-!
# The rules of the verdict

The verdict on a line is a rule about what the line says as a whole: its last
line number against the one that is awaited, and its last checksum against the
sum of what it covers.  The number is judged first.
-/

namespace GcodeLink

namespace Policy

/-- A number is demanded, and the line has none or one out of sequence. -/
def RefusesNumber (policy : Policy) (expected : UInt32) (number : Option UInt32) :
    Prop :=
  policy.requireLineNumber = true ∧
    ∀ carried, number = some carried →
      if policy.allowSkip then carried < expected else carried ≠ expected

/-- The line has a mark and another checksum than its sum, or it has no mark and one is demanded. -/
def RefusesSum
    (policy : Policy) (marked : Bool) (received : Option UInt8) (sum : UInt8) :
    Prop :=
  if marked then received ≠ some sum else policy.requireChecksum = true

theorem refusesNumber_iff
    (policy : Policy) (command : Command) :
    policy.RefusesNumber command.expected
        (if command.seen.lineNumber then some command.lineNumber else none) ↔
      (policy.requireLineNumber && !policy.inSequence command) = true := by
  rw [RefusesNumber, Bool.and_eq_true, Bool.not_eq_true', inSequence]
  cases command.seen.lineNumber with
  | false => simp
  | true => cases policy.allowSkip <;> simp

theorem refusesSum_iff
    (policy : Policy) (command : Command) :
    policy.RefusesSum command.seen.checksum command.received command.sum ↔
      policy.checksumHolds command = false := by
  rw [RefusesSum, checksumHolds, checksumMatches]
  cases command.seen.checksum <;> simp

theorem judge_eq_badLineNumber_iff
    {policy : Policy} {command : Command} {number : UInt32} :
    policy.judge command = .rejected (.badLineNumber number) ↔
      number = command.expected ∧
        (policy.requireLineNumber && !policy.inSequence command) = true := by
  rw [judge]
  split
  · next refused => simp [refused, eq_comm]
  · next passed =>
      split <;> simp [passed]

theorem judge_eq_badChecksum_iff
    {policy : Policy} {command : Command} {computed : UInt8} :
    policy.judge command = .rejected (.badChecksum computed) ↔
      computed = command.sum ∧
        (policy.requireLineNumber && !policy.inSequence command) = false ∧
          policy.checksumHolds command = false := by
  rw [judge]
  split
  · next refused => simp [refused]
  · next passed =>
      rw [Bool.not_eq_true] at passed
      split
      · next holds => simp [holds]
      · next fails => simp [fails, passed, eq_comm]

/-- A line is rejected for its number or for its checksum. -/
theorem fault_of_judge
    {policy : Policy} {command : Command} {fault : Fault}
    (rejected : policy.judge command = .rejected fault) :
    fault = .badLineNumber command.expected ∨
      fault = .badChecksum command.sum := by
  rw [judge] at rejected
  split_ifs at rejected
  · exact Or.inl (Verdict.rejected.inj rejected).symm
  · exact Or.inr (Verdict.rejected.inj rejected).symm

/-- The sum has no part in the verdict on a line that is accepted without a checksum. -/
theorem judge_withSum_of_unmarked
    {policy : Policy} {command : Command}
    (unmarked : command.seen.checksum = false)
    (accepted : policy.judge command = .accepted) (sum : UInt8) :
    policy.judge (command.withSum sum) = .accepted := by
  rw [judge_eq_accepted_iff] at accepted ⊢
  have lenient := accepted.2
  rw [checksumHolds, unmarked, if_neg Bool.false_ne_true] at lenient
  refine ⟨accepted.1, ?_⟩
  rw [checksumHolds]
  exact (if_neg (Bool.eq_false_iff.mp unmarked)).trans lenient

end Policy

namespace Receiver

/--
The verdict on a line, and the sum and the checksum in its record, are those
that the rules give for the line as a whole.
-/
structure Judged
    (before : Receiver) (line : List UInt8) (terminator : UInt8)
    (verdict : Verdict) (record : Command) : Prop where
  /-- What the sum covers ends at the mark, or else with the terminator. -/
  sum :
    record.sum =
      Byte.sum
        (Part.covered before.policy.sumIncludesMark (Part.ofBytes line) ++
          if (Part.ofBytes line).any Part.isMark then [] else [terminator])
  received :
    record.received =
      Entry.last? UInt8 .checksum (Part.entries (Part.ofBytes line))
  badLineNumber : ∀ number,
    verdict = .rejected (.badLineNumber number) ↔
      number = before.command.expected ∧
        before.policy.RefusesNumber before.command.expected
          (Entry.last? UInt32 .lineNumber (Part.entries (Part.ofBytes line)))
  badChecksum : ∀ computed,
    verdict = .rejected (.badChecksum computed) ↔
      computed = record.sum ∧
        ¬ before.policy.RefusesNumber before.command.expected
          (Entry.last? UInt32 .lineNumber (Part.entries (Part.ofBytes line))) ∧
        before.policy.RefusesSum ((Part.ofBytes line).any Part.isMark)
          record.received record.sum
  accepted :
    verdict = .accepted ↔
      ¬ before.policy.RefusesNumber before.command.expected
          (Entry.last? UInt32 .lineNumber (Part.entries (Part.ofBytes line))) ∧
        ¬ before.policy.RefusesSum ((Part.ofBytes line).any Part.isMark)
          record.received record.sum

theorem judged_complete
    {receiver : Receiver} (start : receiver.AtLineStart)
    (line : List UInt8) {terminator : UInt8}
    (ends : Byte.isTerminator terminator = true) :
    receiver.Judged line terminator
      (receiver.complete line terminator).verdict
      (receiver.complete line terminator).command := by
  have read := reads_complete start line ends
  have number := read.entries.lineNumber.getLast?
  rw [Entry.getLast?_conversions (fun _ => rfl)] at number
  have expected := expected_complete start line ends
  have refusesNumber :
      receiver.policy.RefusesNumber receiver.command.expected
          (Entry.last? UInt32 .lineNumber (Part.entries (Part.ofBytes line))) ↔
        (receiver.policy.requireLineNumber &&
          !receiver.policy.inSequence
            (receiver.complete line terminator).command) = true := by
    rw [← Policy.refusesNumber_iff, number, expected]
    rfl
  have refusesSum :
      receiver.policy.RefusesSum ((Part.ofBytes line).any Part.isMark)
          (receiver.complete line terminator).command.received
          (receiver.complete line terminator).command.sum ↔
        receiver.policy.checksumHolds
          (receiver.complete line terminator).command = false := by
    rw [← read.checksum, Policy.refusesSum_iff]
  constructor
  case sum =>
    exact sum_complete start ends
  case received =>
    rw [read.entries.received, Entry.getLast?_conversions (fun _ => rfl)]
  case badLineNumber =>
    intro carried
    rw [verdict, policy_complete, Policy.judge_eq_badLineNumber_iff, expected,
      refusesNumber]
  case badChecksum =>
    intro computed
    rw [verdict, policy_complete, Policy.judge_eq_badChecksum_iff, refusesNumber,
      refusesSum, Bool.not_eq_true]
  case accepted =>
    rw [verdict, policy_complete, Policy.judge_eq_accepted_iff, refusesNumber,
      refusesSum]
    simp

/--
The verdict is the rule on checksum and sequence, whatever the bytes of the
line.  An asterisk outside comments is the mark of a checksum; up to the first
of them every byte enters the sum as it is read, and the mark itself if the
policy says so.
-/
theorem deliveries_judged
    (listener : Verdict → Command → Command)
    {receiver : Receiver} (start : receiver.AtLineStart)
    {line : List UInt8} (plain : Byte.Unterminated line)
    {terminator : UInt8} (ends : Byte.isTerminator terminator = true) :
    (∀ part ∈ Part.ofBytes line, Byte.asterisk ∈ part.text →
        part.isMark = true ∨ part.isComment = true) ∧
      (∀ front, front <+: line →
        (receiver.pushAll listener front).command.sum =
          Byte.sum
            ((Part.covered receiver.policy.sumIncludesMark
              (Part.ofBytes line)).take front.length)) ∧
      ∃ verdict record,
        receiver.deliveries listener (line ++ [terminator]) =
            [(verdict, record)] ∧
          receiver.Judged line terminator verdict record := by
  refine ⟨fun part => Part.isMark_or_isComment_of_asterisk, ?_,
    _, _, deliveries_line listener receiver plain ends, ?_⟩
  · rintro front ⟨rest, rfl⟩
    rw [Byte.unterminated_append] at plain
    rw [pushAll_of_unterminated listener receiver plain.1, sum_absorbAll start,
      covered_of_append start _ front rest]
  · have judged := judged_complete start line ends
    have sum :
        (receiver.complete line terminator).delivered.sum =
          (receiver.complete line terminator).command.sum :=
      project_delivered (·.sum) (fun _ _ => rfl) _
    have received :
        (receiver.complete line terminator).delivered.received =
          (receiver.complete line terminator).command.received :=
      project_delivered (·.received) (fun _ _ => rfl) _
    constructor
    · rw [sum]
      exact judged.sum
    · rw [received]
      exact judged.received
    · exact judged.badLineNumber
    · rw [sum, received]
      exact judged.badChecksum
    · rw [sum, received]
      exact judged.accepted

/-- The line `N0(*)*127` under every demand: its first asterisk is in a comment. -/
theorem deliveries_judged_comment :
    (∀ part ∈ Part.ofBytes [78, 48, 40, 42, 41, 42, 49, 50, 55],
        Byte.asterisk ∈ part.text →
          part.isMark = true ∨ part.isComment = true) ∧
      (∀ front, front <+: [78, 48, 40, 42, 41, 42, 49, 50, 55] →
        ((Receiver.new ⟨true, true, true, true⟩ .zero).pushAll keep
            front).command.sum =
          Byte.sum
            ((Part.covered true
              (Part.ofBytes [78, 48, 40, 42, 41, 42, 49, 50, 55])).take
                front.length)) ∧
      ∃ verdict record,
        (Receiver.new ⟨true, true, true, true⟩ .zero).deliveries keep
            ([78, 48, 40, 42, 41, 42, 49, 50, 55] ++ [Byte.lineFeed]) =
            [(verdict, record)] ∧
          (Receiver.new ⟨true, true, true, true⟩ .zero).Judged
            [78, 48, 40, 42, 41, 42, 49, 50, 55] Byte.lineFeed verdict record :=
  deliveries_judged keep (atLineStart_new ⟨true, true, true, true⟩ .zero)
    (by decide) rfl

end Receiver

end GcodeLink
