import GcodeLink.Proofs.Judgement
import GcodeLink.Proofs.Receiver.Receptions

/-!
# Line numbers along a run

Where line numbers are demanded, the awaited number moves with accepted lines
only, and always past the number that such a line carries.  What one line does
to the awaited number is said once, in `Reception.Numbered`; that accepted
numbers neither repeat nor go back follows from it for every run, up to the
last number there is, which follows itself.
-/

namespace GcodeLink

/-- The listener leaves the awaited number alone. -/
def KeepsNumbering (listener : Verdict → Command → Command) : Prop :=
  ∀ verdict command, (listener verdict command).expected = command.expected

namespace Reception

/-- The number that is awaited when the line starts. -/
def awaited (reception : Reception) : UInt32 :=
  reception.before.command.expected

/-- The number that is awaited when the line is over. -/
def awaitedNext (reception : Reception) : UInt32 :=
  reception.after.command.expected

/-- The number that the line carries: that of its last `N`, if it fits. -/
def number? (reception : Reception) : Option UInt32 :=
  Entry.last? UInt32 .lineNumber (Part.entries (Part.ofBytes reception.line))

/-- The number of a line that is accepted. -/
def acceptedNumber? (reception : Reception) : Option UInt32 :=
  if reception.verdict.isAccepted then reception.number? else none

/-- How a line and the awaited number deal with one another where numbers are demanded. -/
structure Numbered (reception : Reception) (policy : Policy) : Prop where
  /-- An accepted line carries a number in sequence, and the one after it is awaited next. -/
  accepted :
    reception.verdict = .accepted →
      ∃ number, reception.number? = some number ∧
        (if policy.allowSkip then reception.awaited ≤ number
          else number = reception.awaited) ∧
        reception.awaitedNext.toNat = min (number.toNat + 1) 4294967295
  /-- A rejected line leaves the awaited number alone. -/
  rejected : ∀ fault,
    reception.verdict = .rejected fault →
      reception.awaitedNext = reception.awaited
  /-- The number that the host is told is the awaited one. -/
  badLineNumber : ∀ number,
    reception.verdict = .rejected (.badLineNumber number) →
      number = reception.awaited

/-- The numbers of the accepted lines, the oldest first. -/
def acceptedNumbers (receptions : List Reception) : List UInt32 :=
  receptions.filterMap acceptedNumber?

/-- A line is either accepted with a number in sequence or as good as not there. -/
theorem Numbered.cases
    {reception : Reception} {policy : Policy}
    (numbered : reception.Numbered policy) :
    (reception.acceptedNumber? = none ∧
        reception.awaitedNext = reception.awaited) ∨
      ∃ number, reception.acceptedNumber? = some number ∧
        (if policy.allowSkip then reception.awaited ≤ number
          else number = reception.awaited) ∧
        reception.awaitedNext.toNat = min (number.toNat + 1) 4294967295 := by
  rw [acceptedNumber?]
  cases verdict : reception.verdict with
  | rejected fault =>
      exact Or.inl ⟨rfl, numbered.rejected fault verdict⟩
  | accepted =>
      exact Or.inr (numbered.accepted verdict)

end Reception

/-! ## Numbers in sequence -/

/--
Numbers that are in sequence one after the other, from the awaited one on: each
of them makes the one after it awaited.
-/
inductive Sequenced (allowSkip : Bool) : UInt32 → List UInt32 → Prop where
  | nil (awaited : UInt32) :
      Sequenced allowSkip awaited []
  | cons
      {awaited number : UInt32} {rest : List UInt32}
      (reached : if allowSkip then awaited ≤ number else number = awaited)
      (later : Sequenced allowSkip (followingNumber number) rest) :
      Sequenced allowSkip awaited (number :: rest)

namespace Sequenced

variable {allowSkip : Bool} {awaited : UInt32} {numbers : List UInt32}

/-- No number lies before the one that is awaited at first. -/
theorem awaited_le (sequenced : Sequenced allowSkip awaited numbers) :
    ∀ number ∈ numbers, awaited.toNat ≤ number.toNat := by
  induction sequenced with
  | nil awaited =>
      exact List.forall_mem_nil _
  | @cons awaited number rest reached later ih =>
      have first : awaited.toNat ≤ number.toNat := by
        split at reached
        · exact UInt32.le_iff_toNat_le.mp reached
        · exact (congrArg UInt32.toNat reached).symm.le
      have bound := awaited.toNat_lt
      rw [List.forall_mem_cons]
      refine ⟨first, ?_⟩
      intro other member
      have beyond := ih other member
      rw [toNat_followingNumber] at beyond
      omega

/-- Numbers in sequence go up, unless they stand at the last number there is. -/
theorem pairwise (sequenced : Sequenced allowSkip awaited numbers) :
    numbers.Pairwise fun earlier later =>
      earlier < later ∨ earlier = 4294967295 := by
  induction sequenced with
  | nil awaited =>
      exact List.Pairwise.nil
  | @cons awaited number rest reached later ih =>
      refine List.Pairwise.cons ?_ ih
      intro other member
      have beyond := later.awaited_le other member
      have bound := number.toNat_lt
      rw [toNat_followingNumber] at beyond
      rw [UInt32.lt_iff_toNat_lt, ← UInt32.toNat_inj]
      show number.toNat < other.toNat ∨ number.toNat = 4294967295
      omega

/-- Without skips the numbers are counted up one by one, as far as there are numbers. -/
theorem consecutive
    (sequenced : Sequenced false awaited numbers)
    {index : Nat} {number : UInt32}
    (found : numbers[index]? = some number) :
    number.toNat = min (awaited.toNat + index) 4294967295 := by
  induction sequenced generalizing index with
  | nil awaited =>
      cases found
  | @cons awaited first rest reached later ih =>
      have bound := awaited.toNat_lt
      have start : first = awaited := reached
      cases index with
      | zero =>
          have here : first = number := Option.some.inj found
          rw [← here, start]
          omega
      | succ index =>
          have counted := ih found
          rw [toNat_followingNumber, start] at counted
          omega

end Sequenced

/-! ## One line -/

namespace Policy

/-- A demanded number is not refused only if there is one, and it is in sequence. -/
theorem exists_of_not_refusesNumber
    {policy : Policy} (demanded : policy.requireLineNumber = true)
    {expected : UInt32} {number : Option UInt32}
    (passes : ¬ policy.RefusesNumber expected number) :
    ∃ carried, number = some carried ∧
      if policy.allowSkip then expected ≤ carried else carried = expected := by
  cases number with
  | none =>
      exact absurd ⟨demanded, nofun⟩ passes
  | some carried =>
      refine ⟨carried, rfl, ?_⟩
      by_contra outside
      apply passes
      refine ⟨demanded, ?_⟩
      intro other same
      cases same
      cases skip : policy.allowSkip with
      | true =>
          rw [skip, if_pos rfl] at outside
          rw [if_pos rfl]
          exact UInt32.not_le.mp outside
      | false =>
          rw [skip, if_neg Bool.false_ne_true] at outside
          rw [if_neg Bool.false_ne_true]
          exact outside

end Policy

namespace Receiver

/-- An accepted line with a number makes the one after it awaited. -/
theorem expected_delivered_of_accepted
    {receiver : Receiver} (start : receiver.AtLineStart)
    (line : List UInt8) {terminator : UInt8}
    (ends : Byte.isTerminator terminator = true)
    (accepted : (receiver.complete line terminator).verdict = .accepted)
    {number : UInt32}
    (carried :
      Entry.last? UInt32 .lineNumber (Part.entries (Part.ofBytes line)) =
        some number) :
    (receiver.complete line terminator).delivered.expected =
      followingNumber number := by
  have read :=
    (reads_complete start line ends).entries.lineNumber.getLast?
  rw [Entry.getLast?_conversions (fun _ => rfl), carried] at read
  rw [delivered, accepted]
  show (Command.advance _).expected = _
  rw [Command.advance]
  split at read
  · next seen =>
      have counted :
          (receiver.complete line terminator).command.seen.lineNumber = true :=
        seen
      rw [if_pos counted, Option.some.inj read]
  · cases read

theorem numbered_receive
    {receiver : Receiver} (start : receiver.AtLineStart)
    (demanded : receiver.policy.requireLineNumber = true)
    {listener : Verdict → Command → Command}
    (keeps : KeepsNumbering listener)
    (line : List UInt8) {terminator : UInt8}
    (ends : Byte.isTerminator terminator = true) :
    (receiver.receive listener line terminator).Numbered receiver.policy := by
  have judged := judged_complete start line ends
  have next :
      (receiver.receive listener line terminator).awaitedNext =
        (receiver.complete line terminator).delivered.expected :=
    keeps _ _
  constructor
  case accepted =>
    intro accepted
    obtain ⟨number, carried, inSequence⟩ :=
      Policy.exists_of_not_refusesNumber demanded
        (judged.accepted.mp accepted).1
    refine ⟨number, carried, inSequence, ?_⟩
    rw [next, expected_delivered_of_accepted start line ends accepted carried,
      toNat_followingNumber]
  case rejected =>
    intro fault rejected
    rw [next, delivered_of_rejected rejected]
    exact expected_complete start line ends
  case badLineNumber =>
    intro number rejected
    exact ((judged.badLineNumber number).mp rejected).1

/-! ## A run -/

namespace History

open Reception

variable
  {policy : Policy} {receiver : Receiver} {receptions : List Reception}

/-- Where numbers are demanded, every line of a run deals with the awaited number as it should. -/
theorem numbered
    (history : History KeepsNumbering receiver receptions)
    (same : receiver.policy = policy)
    (demanded : policy.requireLineNumber = true) :
    ∀ reception ∈ receptions, reception.Numbered policy := by
  induction history with
  | nil receiver =>
      exact List.forall_mem_nil _
  | cons start plain ends keeps later ih =>
      subst same
      rw [List.forall_mem_cons]
      exact
        ⟨numbered_receive start demanded keeps _ ends,
          ih (policy_after_receive _ _ _ _)⟩

/-- The numbers of the accepted lines are in sequence from the awaited one on. -/
theorem sequenced
    (history : History KeepsNumbering receiver receptions)
    (same : receiver.policy = policy)
    (demanded : policy.requireLineNumber = true) :
    Sequenced policy.allowSkip receiver.command.expected
      (acceptedNumbers receptions) := by
  induction history with
  | nil receiver =>
      exact Sequenced.nil receiver.command.expected
  | @cons receiver listener line terminator rest start plain ends keeps later
      ih =>
      subst same
      have later := ih (policy_after_receive receiver listener line terminator)
      rcases (numbered_receive start demanded keeps line ends).cases with
        ⟨unnumbered, still⟩ | ⟨number, accepted, reached, next⟩
      · rw [acceptedNumbers, List.filterMap_cons_none unnumbered]
        have here :
            (receiver.receive listener line terminator).after.command.expected =
              receiver.command.expected :=
          still
        rw [here] at later
        exact later
      · have following :
            (receiver.receive listener line terminator).after.command.expected =
              followingNumber number := by
          apply UInt32.toNat_inj.mp
          rw [toNat_followingNumber]
          exact next
        rw [following] at later
        rw [acceptedNumbers, List.filterMap_cons_some accepted]
        exact Sequenced.cons reached later

end History

/--
Where numbers are demanded, whatever lines arrive: an accepted line carries a
number in sequence and makes the next one awaited, a rejected line does not
count, and the host is told the awaited number.  So no accepted number repeats
or goes back before the last number there is, and without skips none is left
out.
-/
theorem receptions_numbered
    {receiver : Receiver} (start : receiver.AtLineStart)
    (demanded : receiver.policy.requireLineNumber = true)
    {arrivals : List Arrival}
    (keeps : ∀ arrival ∈ arrivals, KeepsNumbering arrival.listener) :
    (∀ reception ∈ receiver.receptions arrivals,
        reception.Numbered receiver.policy) ∧
      ((Reception.acceptedNumbers (receiver.receptions arrivals)).Pairwise
        fun earlier later => earlier < later ∨ earlier = 4294967295) ∧
      (receiver.policy.allowSkip = false →
        ∀ index number,
          (Reception.acceptedNumbers
              (receiver.receptions arrivals))[index]? = some number →
            number.toNat =
              min (receiver.command.expected.toNat + index) 4294967295) := by
  have history := history_receptions start keeps
  have sequenced := history.sequenced rfl demanded
  refine ⟨history.numbered rfl demanded, sequenced.pairwise, ?_⟩
  intro strict index number found
  rw [strict] at sequenced
  exact sequenced.consecutive found

/-- The lines `N0`, `N5` and `N1` arrive, and each is answered by a change of the settings. -/
theorem receptions_numbered_gap :
    let listener : Verdict → Command → Command :=
      fun _ command =>
        { command with settings := { command.settings with relative := true } }
    let arrivals : List Arrival :=
      [78, 48, 10, 78, 53, 10, 78, 49, 10].map fun byte => { byte, listener }
    let receiver := Receiver.new ⟨true, false, false, false⟩ .zero
    (∀ reception ∈ receiver.receptions arrivals,
        reception.Numbered receiver.policy) ∧
      ((Reception.acceptedNumbers (receiver.receptions arrivals)).Pairwise
        fun earlier later => earlier < later ∨ earlier = 4294967295) ∧
      (receiver.policy.allowSkip = false →
        ∀ index number,
          (Reception.acceptedNumbers
              (receiver.receptions arrivals))[index]? = some number →
            number.toNat =
              min (receiver.command.expected.toNat + index) 4294967295) := by
  intro listener arrivals receiver
  apply receptions_numbered (atLineStart_new _ _) rfl
  intro arrival member
  obtain ⟨byte, _, rfl⟩ := List.mem_map.mp member
  intro verdict command
  rfl

end Receiver

end GcodeLink
