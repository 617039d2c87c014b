import GcodeLink.Proofs.Receiver.Step

/-!
# The sum of a line

Absorbing a byte is stepping it and, as long as no checksum field was met,
folding it into the sum.  The mark of the checksum field is never taken back
on a line, and it is set by an asterisk outside comments alone.  So the sum of
a run of bytes is that of the bytes before that asterisk, with the asterisk
itself if the policy counts it.
-/

namespace GcodeLink

/-- The phase is a comment. -/
def Phase.isComment : Phase → Bool
  | .comment _ => true
  | _ => false

namespace Receiver

/-! ## The sum as a frame -/

/-- The receiver with another sum. -/
def withSum (receiver : Receiver) (sum : UInt8) : Receiver :=
  { receiver with command := receiver.command.withSum sum }

@[simp]
theorem sum_withSum (receiver : Receiver) (sum : UInt8) :
    (receiver.withSum sum).command.sum = sum :=
  rfl

@[simp]
theorem withSum_withSum (receiver : Receiver) (first second : UInt8) :
    (receiver.withSum first).withSum second = receiver.withSum second :=
  rfl

@[simp]
theorem withSum_sum (receiver : Receiver) :
    receiver.withSum receiver.command.sum = receiver :=
  rfl

theorem readIdle_withSum (receiver : Receiver) (sum byte : UInt8) :
    (receiver.withSum sum).readIdle byte = (receiver.readIdle byte).withSum sum := by
  simp only [readIdle, openField, withSum, Command.start_withSum]
  split_ifs <;> rfl

theorem settleField_withSum
    (receiver : Receiver) (sum : UInt8) (field : Field) (value : Literal)
    (byte : UInt8) :
    (receiver.withSum sum).settleField field value byte =
      (receiver.settleField field value byte).withSum sum := by
  rw [settleField_eq, settleField_eq]
  simp only [withSum, Command.settle_withSum]
  split <;> rfl

/-- A step neither reads nor writes the sum. -/
theorem step_withSum (receiver : Receiver) (sum raw : UInt8) :
    (receiver.withSum sum).step raw = (receiver.step raw).withSum sum := by
  have settled :
      (receiver.withSum sum).settle (Byte.fold raw) =
        (receiver.settle (Byte.fold raw)).withSum sum := by
    have samePhase : (receiver.withSum sum).phase = receiver.phase := rfl
    rw [settle, settle, samePhase]
    split
    · split
      · exact settleField_withSum receiver sum _ _ _
      · rfl
    · rfl
  rw [step, step, settled]
  generalize receiver.settle (Byte.fold raw) = after
  have samePhase : (after.withSum sum).phase = after.phase := rfl
  rw [read, read, samePhase]
  split
  · exact readIdle_withSum after sum _
  · rfl
  · rfl
  · split <;> rfl
  · split
    · exact readIdle_withSum after sum _
    · rfl

theorem sum_step (receiver : Receiver) (raw : UInt8) :
    (receiver.step raw).command.sum = receiver.command.sum := by
  have framed := step_withSum receiver receiver.command.sum raw
  rw [withSum_sum] at framed
  rw [framed, sum_withSum]

/-! ## The mark of the checksum field -/

theorem checksum_settle
    (command : Command) (scale : Scale) (field : Field) (value : Literal) :
    (command.settle scale field value).seen.checksum = command.seen.checksum := by
  cases field with
  | g | m | axis _ | feed | s | p | lineNumber =>
      exact Command.project_settle (·.seen.checksum) rfl (fun _ => rfl) rfl
  | checksum | unknown _ =>
      rfl

theorem checksum_start (command : Command) (field : Field) :
    (command.start field).seen.checksum =
      (command.seen.checksum || decide (field = .checksum)) := by
  cases field <;> simp [Command.start, FieldSet.insert, FieldSet.erase, FieldSet.put]

/-- The asterisk alone opens the checksum field. -/
theorem ofByte_eq_checksum_iff (byte : UInt8) :
    Field.ofByte byte = .checksum ↔ byte = Byte.asterisk := by
  constructor
  · intro opened
    have opener := Field.opener_ofByte byte
    rw [opened] at opener
    exact opener.symm
  · rintro rfl
    rfl

theorem checksum_readIdle (receiver : Receiver) (byte : UInt8) :
    (receiver.readIdle byte).command.seen.checksum =
      (receiver.command.seen.checksum || byte == Byte.asterisk) := by
  rw [readIdle]
  split_ifs with opens semicolon paren
  · simp only [openField, checksum_start, ofByte_eq_checksum_iff]
    rfl
  · rw [beq_iff_eq] at semicolon
    simp [semicolon, Byte.semicolon, Byte.asterisk]
  · rw [beq_iff_eq] at paren
    simp [paren, Byte.openParen, Byte.asterisk]
  · have other : (byte == Byte.asterisk) = false := by
      rw [← Bool.not_eq_true]
      intro mark
      exact opens (by rw [Byte.opensField, mark, Bool.or_true])
    simp [other]

/-- An asterisk outside comments sets the mark, and nothing takes it back. -/
theorem checksum_step (receiver : Receiver) (raw : UInt8) :
    (receiver.step raw).command.seen.checksum =
      (receiver.command.seen.checksum ||
        (raw == Byte.asterisk && !receiver.phase.isComment)) := by
  have folded : (Byte.fold raw == Byte.asterisk) = (raw == Byte.asterisk) := by
    rw [Bool.eq_iff_iff]
    simp
  have idleStep (idling : Receiver) (idle : idling.phase = .idle) :
      (idling.step raw).command.seen.checksum =
        (idling.command.seen.checksum || raw == Byte.asterisk) := by
    rw [step_idle idle, checksum_readIdle, folded]
  have nameStep (naming : Receiver) (inName : naming.phase = .filename) :
      (naming.step raw).command.seen.checksum =
        (naming.command.seen.checksum || raw == Byte.asterisk) := by
    by_cases ends : Byte.endsFilename raw = true
    · rw [step_of_endsFilename inName ends]
      exact idleStep { naming with phase := .idle } rfl
    · have other : (raw == Byte.asterisk) = false := by
        rw [← Bool.not_eq_true]
        intro mark
        exact ends (by rw [Byte.endsFilename, mark, Bool.or_true])
      rw [step_of_isName inName (by simp [Part.isName, ends]), other,
        Bool.or_false]
  cases inPhase : receiver.phase with
  | idle =>
      rw [idleStep receiver inPhase]
      simp [Phase.isComment]
  | field field value =>
      have noComment : (Phase.field field value).isComment = false := rfl
      rw [noComment, Bool.not_false, Bool.and_true]
      by_cases ends : Byte.endsField (Byte.fold raw) = true
      · rw [step_of_endsField inPhase ends, settleField_eq]
        split
        · rw [nameStep _ rfl]
          simp only [checksum_settle]
        · rw [idleStep _ rfl]
          simp only [checksum_settle]
      · have other : (raw == Byte.asterisk) = false := by
          rw [← folded, ← Bool.not_eq_true]
          intro mark
          exact ends (by rw [Byte.endsField, mark]; simp)
        rw [step_of_isBody inPhase (by simp [Part.isBody, ends]), other,
          Bool.or_false]
  | comment comment =>
      have inside : (Phase.comment comment).isComment = true := rfl
      rw [inside, Bool.not_true, Bool.and_false, Bool.or_false]
      cases comment with
      | semicolon =>
          rw [step_semicolon inPhase]
      | parens =>
          by_cases closes : raw = Byte.closeParen
          · subst closes
            rw [step_closeParen inPhase]
          · rw [step_of_isInside inPhase (by simp [Part.isInside, closes])]
  | filename =>
      rw [nameStep receiver inPhase]
      simp [Phase.isComment]

/-- A terminator is no mark. -/
theorem checksum_step_of_isTerminator
    (receiver : Receiver) {terminator : UInt8}
    (ends : Byte.isTerminator terminator = true) :
    (receiver.step terminator).command.seen.checksum =
      receiver.command.seen.checksum := by
  have other : (terminator == Byte.asterisk) = false := by
    rw [beq_eq_false_iff_ne]
    exact (Byte.ne_of_isTerminator ends).2.2.2
  rw [checksum_step, other, Bool.false_and, Bool.or_false]

/-- The mark outlives every further byte of the line. -/
theorem checksum_stepAll_of_checksum
    {receiver : Receiver} (marked : receiver.command.seen.checksum = true)
    (bytes : List UInt8) :
    (receiver.stepAll bytes).command.seen.checksum = true := by
  induction bytes generalizing receiver with
  | nil =>
      exact marked
  | cons byte rest ih =>
      rw [stepAll_cons]
      apply ih
      rw [checksum_step, marked, Bool.true_or]

/-- Somewhere in the bytes that set the mark stands the asterisk that did. -/
theorem exists_mark
    {receiver : Receiver} {bytes : List UInt8}
    (unmarked : receiver.command.seen.checksum = false)
    (marked : (receiver.stepAll bytes).command.seen.checksum = true) :
    ∃ front back,
      bytes = front ++ Byte.asterisk :: back ∧
        (receiver.stepAll front).command.seen.checksum = false ∧
        (receiver.stepAll front).phase.isComment = false := by
  induction bytes generalizing receiver with
  | nil =>
      rw [stepAll_nil, unmarked] at marked
      cases marked
  | cons byte rest ih =>
      cases next : (receiver.step byte).command.seen.checksum with
      | true =>
          rw [checksum_step, unmarked, Bool.false_or, Bool.and_eq_true,
            beq_iff_eq, Bool.not_eq_true'] at next
          exact ⟨[], rest, by rw [next.1]; rfl, unmarked, next.2⟩
      | false =>
          obtain ⟨front, back, rfl, before, outside⟩ := ih next marked
          exact ⟨byte :: front, back, rfl, before, outside⟩

/-! ## Absorbing -/

/-- The projection looks at nothing that a step writes. -/
structure Overlooks {α : Type} (project : Receiver → α) : Prop where
  phase : ∀ (receiver : Receiver) (phase : Phase),
    project { receiver with phase } = project receiver
  start : ∀ (receiver : Receiver) (field : Field),
    project { receiver with command := receiver.command.start field } =
      project receiver
  settle : ∀ (receiver : Receiver) (scale : Scale) (field : Field)
      (value : Literal),
    project
        { receiver with
          command := receiver.command.settle scale field value } =
      project receiver
  filename : ∀ (receiver : Receiver) (filename : Filename),
    project
        { receiver with command := { receiver.command with filename } } =
      project receiver

namespace Overlooks

variable {α : Type} {project : Receiver → α}

/-- What stands outside the phase and the record is overlooked by every step. -/
theorem of_blind
    (blind :
      ∀ (receiver : Receiver) (phase : Phase) (command : Command),
        project { receiver with phase, command } = project receiver) :
    Overlooks project where
  phase receiver phase := blind receiver phase receiver.command
  start receiver _ := blind receiver receiver.phase _
  settle receiver _ _ _ := blind receiver receiver.phase _
  filename receiver _ := blind receiver receiver.phase _

theorem readIdle
    (overlooks : Overlooks project) (receiver : Receiver) (byte : UInt8) :
    project (receiver.readIdle byte) = project receiver := by
  rw [Receiver.readIdle]
  split_ifs
  · exact (overlooks.phase _ _).trans (overlooks.start receiver _)
  · exact overlooks.phase receiver _
  · exact overlooks.phase receiver _
  · exact overlooks.phase receiver _

theorem settleByte
    (overlooks : Overlooks project) (receiver : Receiver) (byte : UInt8) :
    project (receiver.settle byte) = project receiver := by
  rw [Receiver.settle]
  split
  · next field value _ =>
      have settled := overlooks.settle receiver receiver.scale field value
      split
      · rw [settleField_eq]
        split
        · exact
            (overlooks.phase _ _).trans
              ((overlooks.filename _ _).trans settled)
        · exact (overlooks.phase _ _).trans settled
      · rfl
  · rfl

theorem read
    (overlooks : Overlooks project) (receiver : Receiver) (raw byte : UInt8) :
    project (receiver.read raw byte) = project receiver := by
  rw [Receiver.read]
  split
  · exact overlooks.readIdle receiver byte
  · exact overlooks.phase receiver _
  · rfl
  · split
    · exact overlooks.phase receiver _
    · rfl
  · split
    · exact overlooks.readIdle receiver byte
    · exact overlooks.filename receiver _

theorem step
    (overlooks : Overlooks project) (receiver : Receiver) (raw : UInt8) :
    project (receiver.step raw) = project receiver :=
  (overlooks.read _ raw (Byte.fold raw)).trans
    (overlooks.settleByte receiver (Byte.fold raw))

end Overlooks

@[simp]
theorem policy_step (receiver : Receiver) (raw : UInt8) :
    (receiver.step raw).policy = receiver.policy :=
  (Overlooks.of_blind fun _ _ _ => rfl).step receiver raw

@[simp]
theorem scale_step (receiver : Receiver) (raw : UInt8) :
    (receiver.step raw).scale = receiver.scale :=
  (Overlooks.of_blind fun _ _ _ => rfl).step receiver raw

/--
The byte enters the sum: no checksum field was met before it, nor is it the
mark of one unless the policy counts the mark.
-/
def covers (receiver : Receiver) (raw : UInt8) : Bool :=
  !(if receiver.policy.sumIncludesMark then
      receiver.command.seen.checksum
    else
      (receiver.step raw).command.seen.checksum)

theorem absorb_eq (receiver : Receiver) (raw : UInt8) :
    receiver.absorb raw =
      (receiver.step raw).withSum
        (if receiver.covers raw then receiver.command.sum ^^^ raw
          else receiver.command.sum) := by
  have framed (receiver : Receiver) :
      receiver.addToSum raw =
        receiver.withSum
          (if receiver.command.seen.checksum then receiver.command.sum
            else receiver.command.sum ^^^ raw) := by
    rw [addToSum, Command.addToSum]
    split <;> rfl
  cases includes : receiver.policy.sumIncludesMark with
  | true =>
      rw [absorb, covers, if_pos includes, if_pos includes, framed, step_withSum]
      cases receiver.command.seen.checksum <;> rfl
  | false =>
      have excludes : ¬ receiver.policy.sumIncludesMark = true := by
        rw [includes]
        exact Bool.false_ne_true
      rw [absorb, covers, if_neg excludes, if_neg excludes, framed, sum_step]
      cases (receiver.step raw).command.seen.checksum <;> rfl

/-- What overlooks the sum as well is overlooked by a byte that is absorbed. -/
theorem Overlooks.absorb
    {α : Type} {project : Receiver → α} (overlooks : Overlooks project)
    (sum : ∀ (receiver : Receiver) (sum : UInt8),
      project (receiver.withSum sum) = project receiver)
    (receiver : Receiver) (raw : UInt8) :
    project (receiver.absorb raw) = project receiver := by
  rw [absorb_eq, sum]
  exact overlooks.step receiver raw

/-- Absorb bytes in order. -/
def absorbAll (receiver : Receiver) (bytes : List UInt8) : Receiver :=
  bytes.foldl absorb receiver

@[simp]
theorem absorbAll_nil (receiver : Receiver) : receiver.absorbAll [] = receiver :=
  rfl

@[simp]
theorem absorbAll_cons (receiver : Receiver) (byte : UInt8) (rest : List UInt8) :
    receiver.absorbAll (byte :: rest) = (receiver.absorb byte).absorbAll rest :=
  rfl

@[simp]
theorem absorbAll_append (receiver : Receiver) (front rest : List UInt8) :
    receiver.absorbAll (front ++ rest) =
      (receiver.absorbAll front).absorbAll rest := by
  rw [absorbAll, List.foldl_append]
  rfl

theorem stepAll_withSum (receiver : Receiver) (sum : UInt8) (bytes : List UInt8) :
    (receiver.withSum sum).stepAll bytes = (receiver.stepAll bytes).withSum sum := by
  induction bytes generalizing receiver with
  | nil =>
      rfl
  | cons byte rest ih =>
      rw [stepAll_cons, step_withSum, ih, stepAll_cons]

/-- The sum aside, absorbing is stepping. -/
theorem absorbAll_eq (receiver : Receiver) (bytes : List UInt8) :
    receiver.absorbAll bytes =
      (receiver.stepAll bytes).withSum (receiver.absorbAll bytes).command.sum := by
  induction bytes generalizing receiver with
  | nil =>
      rfl
  | cons byte rest ih =>
      have tail := ih (receiver.absorb byte)
      rw [absorb_eq, stepAll_withSum, withSum_withSum, ← absorb_eq] at tail
      exact tail

theorem phase_absorbAll (receiver : Receiver) (bytes : List UInt8) :
    (receiver.absorbAll bytes).phase = (receiver.stepAll bytes).phase := by
  rw [absorbAll_eq]
  rfl

theorem checksum_absorbAll (receiver : Receiver) (bytes : List UInt8) :
    (receiver.absorbAll bytes).command.seen.checksum =
      (receiver.stepAll bytes).command.seen.checksum := by
  rw [absorbAll_eq]
  rfl

@[simp]
theorem policy_absorb (receiver : Receiver) (raw : UInt8) :
    (receiver.absorb raw).policy = receiver.policy := by
  rw [absorb_eq]
  exact policy_step receiver raw

@[simp]
theorem scale_absorb (receiver : Receiver) (raw : UInt8) :
    (receiver.absorb raw).scale = receiver.scale := by
  rw [absorb_eq]
  exact scale_step receiver raw

@[simp]
theorem policy_absorbAll (receiver : Receiver) (bytes : List UInt8) :
    (receiver.absorbAll bytes).policy = receiver.policy := by
  induction bytes generalizing receiver with
  | nil =>
      rfl
  | cons byte rest ih =>
      rw [absorbAll_cons, ih, policy_absorb]

@[simp]
theorem scale_absorbAll (receiver : Receiver) (bytes : List UInt8) :
    (receiver.absorbAll bytes).scale = receiver.scale := by
  induction bytes generalizing receiver with
  | nil =>
      rfl
  | cons byte rest ih =>
      rw [absorbAll_cons, ih, scale_absorb]

/-! ## The sum of a run of bytes -/

/-- As long as no checksum field is met, every byte enters the sum. -/
theorem sum_absorbAll_of_unmarked
    {receiver : Receiver} {bytes : List UInt8}
    (unmarked : (receiver.stepAll bytes).command.seen.checksum = false) :
    (receiver.absorbAll bytes).command.sum =
      receiver.command.sum ^^^ Byte.sum bytes := by
  induction bytes generalizing receiver with
  | nil =>
      simp
  | cons byte rest ih =>
      have afterByte : (receiver.step byte).command.seen.checksum = false := by
        rw [← Bool.not_eq_true]
        intro marked
        rw [stepAll_cons, checksum_stepAll_of_checksum marked] at unmarked
        cases unmarked
      have before : receiver.command.seen.checksum = false := by
        rw [checksum_step, Bool.or_eq_false_iff] at afterByte
        exact afterByte.1
      have enters : receiver.covers byte = true := by
        rw [covers, before, afterByte]
        split <;> rfl
      have tail : ((receiver.absorb byte).stepAll rest).command.seen.checksum = false := by
        rw [absorb_eq, stepAll_withSum]
        exact unmarked
      rw [absorbAll_cons, ih tail, absorb_eq, enters, if_pos rfl, sum_withSum,
        Byte.sum_cons, UInt8.xor_assoc]

/-- Once a checksum field was met, no byte enters the sum. -/
theorem sum_absorbAll_of_marked
    {receiver : Receiver} (marked : receiver.command.seen.checksum = true)
    (bytes : List UInt8) :
    (receiver.absorbAll bytes).command.sum = receiver.command.sum := by
  induction bytes generalizing receiver with
  | nil =>
      rfl
  | cons byte rest ih =>
      have after : (receiver.step byte).command.seen.checksum = true := by
        rw [checksum_step, marked, Bool.true_or]
      have left : receiver.covers byte = false := by
        rw [covers, marked, after]
        split <;> rfl
      have marked' : (receiver.absorb byte).command.seen.checksum = true := by
        rw [absorb_eq]
        exact after
      rw [absorbAll_cons, ih marked', absorb_eq, left]
      exact sum_withSum _ _

/-- The sum stops at the first asterisk outside comments. -/
theorem sum_absorbAll_of_mark
    {receiver : Receiver} {front : List UInt8}
    (unmarked : (receiver.stepAll front).command.seen.checksum = false)
    (outside : (receiver.stepAll front).phase.isComment = false)
    (back : List UInt8) :
    (receiver.absorbAll (front ++ Byte.asterisk :: back)).command.sum =
      receiver.command.sum ^^^
        Byte.sum (front ++ if receiver.policy.sumIncludesMark then [Byte.asterisk] else []) := by
  have before : (receiver.absorbAll front).command.seen.checksum = false := by
    rw [checksum_absorbAll, unmarked]
  have reached :
      ((receiver.absorbAll front).step Byte.asterisk).command.seen.checksum = true := by
    rw [checksum_step, before, phase_absorbAll, outside]
    rfl
  have marked :
      ((receiver.absorbAll front).absorb Byte.asterisk).command.seen.checksum = true := by
    rw [absorb_eq]
    exact reached
  rw [absorbAll_append, absorbAll_cons, sum_absorbAll_of_marked marked, absorb_eq,
    sum_withSum, covers, before, reached, policy_absorbAll,
    sum_absorbAll_of_unmarked unmarked]
  cases receiver.policy.sumIncludesMark <;> simp [UInt8.xor_assoc]

/-! ## Bytes that step alike -/

/-- Bytes that make the same steps leave the same but for the sum. -/
theorem withSum_absorbAll_of_stepAll
    {receiver : Receiver} {bytes others : List UInt8}
    (same : receiver.stepAll bytes = receiver.stepAll others) :
    (receiver.absorbAll bytes).withSum (receiver.absorbAll others).command.sum =
      receiver.absorbAll others := by
  rw [receiver.absorbAll_eq bytes, withSum_withSum, same, ← absorbAll_eq]

/-- After the mark of a checksum, bytes that make the same steps leave the same. -/
theorem absorbAll_eq_of_marked
    {receiver : Receiver} {front bytes others : List UInt8}
    (marked : (receiver.stepAll front).command.seen.checksum = true)
    (same :
      receiver.stepAll (front ++ bytes) = receiver.stepAll (front ++ others)) :
    receiver.absorbAll (front ++ bytes) =
      receiver.absorbAll (front ++ others) := by
  rw [← checksum_absorbAll] at marked
  have sum (rest : List UInt8) :
      (receiver.absorbAll (front ++ rest)).command.sum =
        (receiver.absorbAll front).command.sum := by
    rw [absorbAll_append, sum_absorbAll_of_marked marked]
  have framed := withSum_absorbAll_of_stepAll same
  rw [sum others, ← sum bytes, withSum_sum] at framed
  exact framed

end Receiver

end GcodeLink
