import GcodeLink.Command

/-!
# Judging a line

A policy says what the machine demands of a line.  The line number is judged
first and the checksum second.  A checksum that a line carries is always
compared; whether a line must carry one, and a number, is up to the policy.
-/

namespace GcodeLink

/-- What the machine demands of a line. -/
structure Policy where
  /-- Reject a line whose number is missing or out of sequence. -/
  requireLineNumber : Bool
  /-- Reject a line without a checksum. -/
  requireChecksum : Bool
  /-- The asterisk itself is covered by the checksum. -/
  sumIncludesMark : Bool
  /-- A number past the expected one is in sequence as well. -/
  allowSkip : Bool
  deriving DecidableEq, Repr

namespace Policy

/-- The policy that demands nothing. -/
def lenient : Policy where
  requireLineNumber := false
  requireChecksum := false
  sumIncludesMark := false
  allowSkip := false

/-- The line carries the number that is awaited, or one past it where that is allowed. -/
def inSequence (policy : Policy) (command : Command) : Bool :=
  command.seen.lineNumber &&
    (if policy.allowSkip then
      command.expected ≤ command.lineNumber
    else
      command.lineNumber == command.expected)

/-- The checksum that the line carries is the computed one. -/
def checksumMatches (command : Command) : Bool :=
  command.received == some command.sum

/-- The line carries a matching checksum, or none where none is demanded. -/
def checksumHolds (policy : Policy) (command : Command) : Bool :=
  if command.seen.checksum then checksumMatches command else !policy.requireChecksum

/-- Judge a complete line, its number before its checksum. -/
def judge (policy : Policy) (command : Command) : Verdict :=
  if policy.requireLineNumber && !policy.inSequence command then
    .rejected (.badLineNumber command.expected)
  else if policy.checksumHolds command then
    .accepted
  else
    .rejected (.badChecksum command.sum)

/-- A line is accepted exactly if its number and its checksum are in order. -/
theorem judge_eq_accepted_iff {policy : Policy} {command : Command} :
    policy.judge command = .accepted ↔
      (policy.requireLineNumber = true → policy.inSequence command = true) ∧
        policy.checksumHolds command = true := by
  unfold judge
  cases policy.requireLineNumber <;> cases policy.inSequence command <;>
    cases policy.checksumHolds command <;> simp

end Policy

end GcodeLink
