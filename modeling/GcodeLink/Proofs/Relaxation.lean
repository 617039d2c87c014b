import GcodeLink.Proofs.Receiver.Receptions

/-!
# Relaxing the policy

A policy can be relaxed: it gives up demanding a number or a checksum, or it
begins to allow that numbers are left out.  A single line that was accepted is
still accepted then.  But the verdict on a line moves the awaited number and
decides what the listener does, and both reach into the judgement of later
lines; so more is to be shown of a whole run.  Under the relaxed policy it is
the same run, as long as every line was accepted before.

The listener may remember what it was handed, and what it gives back may depend
on that.  It has no way to tell the two runs apart, but that is part of what is
shown.
-/

namespace GcodeLink

namespace Policy

/--
The first policy demands nothing that the second does not demand, and it allows
what the second allows.  Both agree on what a checksum covers.
-/
structure Relaxes (loose strict : Policy) : Prop where
  sumIncludesMark : loose.sumIncludesMark = strict.sumIncludesMark
  requireLineNumber :
    loose.requireLineNumber = true → strict.requireLineNumber = true
  requireChecksum :
    loose.requireChecksum = true → strict.requireChecksum = true
  allowSkip : strict.allowSkip = true → loose.allowSkip = true

namespace Relaxes

variable {loose strict : Policy}

/-- A number in sequence stays in sequence where skips are allowed. -/
theorem inSequence
    (relaxes : loose.Relaxes strict) {command : Command}
    (passes : strict.inSequence command = true) :
    loose.inSequence command = true := by
  rw [Policy.inSequence, Bool.and_eq_true] at passes ⊢
  obtain ⟨numbered, reached⟩ := passes
  refine ⟨numbered, ?_⟩
  cases strictSkips : strict.allowSkip with
  | true =>
      rw [relaxes.allowSkip strictSkips]
      rw [strictSkips] at reached
      exact reached
  | false =>
      rw [strictSkips, if_neg Bool.false_ne_true, beq_iff_eq] at reached
      split
      · rw [reached, decide_eq_true_eq]
        exact UInt32.le_refl command.expected
      · exact beq_iff_eq.mpr reached

theorem checksumHolds
    (relaxes : loose.Relaxes strict) {command : Command}
    (passes : strict.checksumHolds command = true) :
    loose.checksumHolds command = true := by
  rw [Policy.checksumHolds] at passes ⊢
  split at passes
  · next marked =>
      rw [if_pos marked]
      exact passes
  · next unmarked =>
      rw [if_neg unmarked]
      rw [Bool.not_eq_true', Bool.eq_false_iff] at passes ⊢
      exact fun demanded => passes (relaxes.requireChecksum demanded)

/-- What the strict policy accepts, the relaxed one accepts. -/
theorem judge
    (relaxes : loose.Relaxes strict) {command : Command}
    (accepted : strict.judge command = .accepted) :
    loose.judge command = .accepted := by
  rw [judge_eq_accepted_iff] at accepted ⊢
  constructor
  · intro demanded
    exact
      relaxes.inSequence (accepted.1 (relaxes.requireLineNumber demanded))
  · exact relaxes.checksumHolds accepted.2

end Relaxes

end Policy

namespace Receiver

/-- The receiver under another policy. -/
def under (receiver : Receiver) (policy : Policy) : Receiver :=
  { receiver with policy }

/-! ## Reading a byte -/

theorem readIdle_under (receiver : Receiver) (policy : Policy) (byte : UInt8) :
    (receiver.under policy).readIdle byte =
      (receiver.readIdle byte).under policy := by
  rw [readIdle, readIdle]
  split_ifs <;> rfl

theorem settle_under (receiver : Receiver) (policy : Policy) (byte : UInt8) :
    (receiver.under policy).settle byte = (receiver.settle byte).under policy := by
  have samePhase : (receiver.under policy).phase = receiver.phase := rfl
  rw [settle, settle, samePhase]
  split
  · split
    · rw [settleField_eq, settleField_eq]
      split <;> rfl
    · rfl
  · rfl

/-- A step does not look at the policy. -/
theorem step_under (receiver : Receiver) (policy : Policy) (raw : UInt8) :
    (receiver.under policy).step raw = (receiver.step raw).under policy := by
  rw [step, step, settle_under]
  generalize receiver.settle (Byte.fold raw) = settled
  have samePhase : (settled.under policy).phase = settled.phase := rfl
  rw [read, read, samePhase]
  split
  · exact readIdle_under settled policy _
  · rfl
  · rfl
  · split <;> rfl
  · split
    · exact readIdle_under settled policy _
    · rfl

section Relaxed

variable
  {receiver : Receiver} {loose : Policy}
  (relaxes : loose.Relaxes receiver.policy)

include relaxes

/-- Policies that agree on what a checksum covers read a byte in the same way. -/
theorem absorb_under (raw : UInt8) :
    (receiver.under loose).absorb raw = (receiver.absorb raw).under loose := by
  have covers : (receiver.under loose).covers raw = receiver.covers raw := by
    have counts :
        (receiver.under loose).policy.sumIncludesMark =
          receiver.policy.sumIncludesMark :=
      relaxes.sumIncludesMark
    rw [Receiver.covers, Receiver.covers, counts, step_under]
    rfl
  rw [absorb_eq, absorb_eq, covers, step_under]
  rfl

/-- A line that the strict policy accepts is handed over with the same record. -/
theorem handed_under
    {raw : UInt8} (accepted : (receiver.absorb raw).verdict = .accepted) :
    ((receiver.under loose).absorb raw).verdict =
        (receiver.absorb raw).verdict ∧
      ((receiver.under loose).absorb raw).delivered =
        (receiver.absorb raw).delivered := by
  have absorbed : loose.Relaxes (receiver.absorb raw).policy := by
    rw [policy_absorb]
    exact relaxes
  have verdict :
      ((receiver.absorb raw).under loose).verdict = .accepted :=
    absorbed.judge accepted
  rw [absorb_under relaxes]
  constructor
  · rw [verdict, accepted]
  · rw [delivered, delivered, verdict, accepted]
    rfl

/-- A byte that ends no line, or an accepted one, has the same effect under both policies. -/
theorem push_under
    (listener : Verdict → Command → Command) {raw : UInt8}
    (passes : Byte.isTerminator raw = true →
      (receiver.absorb raw).verdict = .accepted) :
    (receiver.under loose).push listener raw =
      (receiver.push listener raw).under loose := by
  rw [push, push]
  split
  · next ends =>
      obtain ⟨verdict, delivered⟩ := handed_under relaxes (passes ends)
      rw [verdict, delivered, absorb_under relaxes]
      rfl
  · exact absorb_under relaxes raw

theorem relaxes_push
    (listener : Verdict → Command → Command) (raw : UInt8) :
    loose.Relaxes (receiver.push listener raw).policy := by
  have same : (receiver.push listener raw).policy = receiver.policy := by
    rw [push]
    split
    · exact policy_absorb receiver raw
    · exact policy_absorb receiver raw
  rw [same]
  exact relaxes

end Relaxed

end Receiver

/-- The reception of the same line under another policy. -/
def Reception.under (reception : Reception) (policy : Policy) : Reception :=
  { reception with
    before := reception.before.under policy
    after := reception.after.under policy }

namespace Receiver

/-! ## A whole run -/

/-- Every line that ends while bytes arrive is accepted. -/
def AcceptsAll
    (before : Receiver) (line : List UInt8) (receiver : Receiver)
    (arrivals : List Arrival) : Prop :=
  ∀ reception ∈ receptionsFrom before line receiver arrivals,
    reception.verdict = .accepted

/-- If all lines of a run are accepted, so is the one that its first byte ends, and those after. -/
theorem AcceptsAll.cons
    {before receiver : Receiver} {line : List UInt8}
    {arrival : Arrival} {rest : List Arrival}
    (accepts : AcceptsAll before line receiver (arrival :: rest)) :
    (Byte.isTerminator arrival.byte = true →
        (receiver.absorb arrival.byte).verdict = .accepted) ∧
      ∃ later lineLater,
        AcceptsAll later lineLater
          (receiver.push arrival.listener arrival.byte) rest := by
  rw [AcceptsAll, receptionsFrom] at accepts
  split at accepts
  · next ends =>
      obtain ⟨first, others⟩ := List.forall_mem_cons.mp accepts
      exact ⟨fun _ => first, _, _, others⟩
  · next inside =>
      exact ⟨fun ends => absurd ends inside, _, _, accepts⟩

/-- The lines of a run in which all are accepted are the same under a relaxed policy. -/
theorem receptionsFrom_under
    {before receiver : Receiver} {loose : Policy}
    (relaxes : loose.Relaxes receiver.policy)
    {line : List UInt8} {arrivals : List Arrival}
    (accepts : AcceptsAll before line receiver arrivals) :
    receptionsFrom (before.under loose) line (receiver.under loose) arrivals =
      (receptionsFrom before line receiver arrivals).map (·.under loose) := by
  induction arrivals generalizing before receiver line with
  | nil =>
      rfl
  | cons arrival rest ih =>
      have pushed :=
        push_under relaxes arrival.listener accepts.cons.1
      have still := relaxes_push relaxes arrival.listener arrival.byte
      rw [AcceptsAll, receptionsFrom] at accepts
      rw [receptionsFrom, receptionsFrom, pushed]
      split
      · next ends =>
          rw [if_pos ends] at accepts
          obtain ⟨accepted, others⟩ := List.forall_mem_cons.mp accepts
          obtain ⟨verdict, record⟩ := handed_under relaxes accepted
          rw [List.map_cons, ih still others, verdict, record]
          rfl
      · next inside =>
          rw [if_neg inside] at accepts
          exact ih still accepts

/--
The arrivals of bytes at a receiver whose lines are all handed to one listener
that remembers: what it gives back for a line may depend on its memory, which
every line may change.
-/
def arrivalsTo
    {Memory : Type} (respond : Memory → Verdict → Command → Memory × Command) :
    Memory → Receiver → List UInt8 → List Arrival
  | _, _, [] => []
  | memory, receiver, byte :: rest =>
      let arrival : Arrival :=
        { byte
          listener := fun verdict command =>
            (respond memory verdict command).2 }
      let absorbed := receiver.absorb byte
      let later :=
        if Byte.isTerminator byte then
          (respond memory absorbed.verdict absorbed.delivered).1
        else
          memory
      arrival :: arrivalsTo respond later (receiver.push arrival.listener byte) rest

/-- As long as all lines are accepted, the listener does the same under a relaxed policy. -/
theorem arrivalsTo_under
    {Memory : Type} (respond : Memory → Verdict → Command → Memory × Command)
    {before receiver : Receiver} {loose : Policy}
    (relaxes : loose.Relaxes receiver.policy)
    {line bytes : List UInt8} {memory : Memory}
    (accepts :
      AcceptsAll before line receiver (arrivalsTo respond memory receiver bytes)) :
    arrivalsTo respond memory (receiver.under loose) bytes =
      arrivalsTo respond memory receiver bytes := by
  induction bytes generalizing before receiver line memory with
  | nil =>
      rfl
  | cons byte rest ih =>
      obtain ⟨passes, _, _, others⟩ := accepts.cons
      have remembered :
          (if Byte.isTerminator byte then
              (respond memory ((receiver.under loose).absorb byte).verdict
                ((receiver.under loose).absorb byte).delivered).1
            else memory) =
            if Byte.isTerminator byte then
              (respond memory (receiver.absorb byte).verdict
                (receiver.absorb byte).delivered).1
            else memory := by
        split
        · next ends =>
            obtain ⟨verdict, record⟩ := handed_under relaxes (passes ends)
            rw [verdict, record]
        · rfl
      rw [arrivalsTo, arrivalsTo]
      dsimp only
      rw [remembered, push_under relaxes _ passes,
        ih (relaxes_push relaxes _ byte) others]

/--
Relaxing the policy does no harm to a host that does everything right.  If all
lines of a stream are accepted, whatever the listener does with them, then under
a relaxed policy all of them are accepted as well: the listener is handed the
same records and gives back the same, and before and after every line the
receiver is the same but for the policy.
-/
theorem receptions_relaxed
    {receiver : Receiver} {loose : Policy}
    (relaxes : loose.Relaxes receiver.policy)
    {Memory : Type} (respond : Memory → Verdict → Command → Memory × Command)
    (memory : Memory) (bytes : List UInt8)
    (accepted :
      ∀ reception ∈
          receiver.receptions (arrivalsTo respond memory receiver bytes),
        reception.verdict = .accepted) :
    let relaxed := receiver.under loose
    arrivalsTo respond memory relaxed bytes =
        arrivalsTo respond memory receiver bytes ∧
      relaxed.receptions (arrivalsTo respond memory relaxed bytes) =
        (receiver.receptions (arrivalsTo respond memory receiver bytes)).map
          (·.under loose) ∧
      ∀ reception ∈
          relaxed.receptions (arrivalsTo respond memory relaxed bytes),
        reception.verdict = .accepted := by
  intro relaxed
  have same :
      arrivalsTo respond memory relaxed bytes =
        arrivalsTo respond memory receiver bytes :=
    arrivalsTo_under respond relaxes accepted
  have lines :
      relaxed.receptions (arrivalsTo respond memory relaxed bytes) =
        (receiver.receptions (arrivalsTo respond memory receiver bytes)).map
          (·.under loose) := by
    rw [same]
    exact receptionsFrom_under relaxes accepted
  refine ⟨same, lines, ?_⟩
  rw [lines, List.forall_mem_map]
  exact accepted

/--
The lines `N0*126` and `N5*123` under every demand and under none.  The listener
counts the lines; it answers the first one with another awaited number, and every
one with relative mode.
-/
theorem receptions_relaxed_numbering :
    let strict : Policy := ⟨true, true, false, false⟩
    let loose : Policy := ⟨false, false, false, true⟩
    let respond : Nat → Verdict → Command → Nat × Command :=
      fun count _ command =>
        (count + 1,
          { command with
            settings := { command.settings with relative := true }
            expected := if count = 0 then 5 else command.expected })
    let bytes : List UInt8 :=
      [78, 48, 42, 49, 50, 54, 10, 78, 53, 42, 49, 50, 51, 10]
    let receiver := new strict .zero
    loose.Relaxes receiver.policy ∧
      (∀ reception ∈ receiver.receptions (arrivalsTo respond 0 receiver bytes),
        reception.verdict = .accepted) ∧
      let relaxed := receiver.under loose
      relaxed.receptions (arrivalsTo respond 0 relaxed bytes) =
          (receiver.receptions (arrivalsTo respond 0 receiver bytes)).map
            (·.under loose) ∧
        (relaxed.receptions (arrivalsTo respond 0 relaxed bytes)).map
            (·.after.command.expected) = [5, 6] := by
  intro strict loose respond bytes receiver
  have relaxes : loose.Relaxes receiver.policy :=
    { sumIncludesMark := rfl
      requireLineNumber := fun demanded => absurd demanded Bool.false_ne_true
      requireChecksum := fun demanded => absurd demanded Bool.false_ne_true
      allowSkip := fun demanded => absurd demanded Bool.false_ne_true }
  have accepted :
      ∀ reception ∈ receiver.receptions (arrivalsTo respond 0 receiver bytes),
        reception.verdict = .accepted := by
    decide
  obtain ⟨_, lines, _⟩ :=
    receptions_relaxed relaxes respond 0 bytes accepted
  refine ⟨relaxes, accepted, lines, ?_⟩
  decide

end Receiver

end GcodeLink
