import GcodeLink.Proofs.Judgement

/-!
# A corrupted byte

One changed byte changes the exclusive or of the bytes that hold it, so a line
that carries a checksum should not survive the change.  This holds as long as
the change brings no asterisk into play before the checksum field.  If it does,
the sum stops at that asterisk while the checksum is still taken from the last
one, and a change may go undetected.
-/

namespace GcodeLink

namespace Part

/-- A digit belongs to the body of a field. -/
theorem isBody_of_isDigit
    {byte : UInt8} (digit : Byte.isDigit byte = true) :
    isBody byte = true := by
  have bounds : 48 ≤ byte.toNat ∧ byte.toNat ≤ 57 := by
    simpa [Byte.isDigit, UInt8.le_iff_toNat_le] using digit
  have folded : Byte.fold byte = byte :=
    Byte.fold_of_not_lower (by omega)
  have distinct (mark : UInt8) (outside : mark.toNat < 48 ∨ 57 < mark.toNat) :
      (byte == mark) = false := by
    rw [beq_eq_false_iff_ne]
    rintro rfl
    omega
  have small : Byte.isCapital byte = false := by
    have low : ¬ 65 ≤ byte.toNat := by
      omega
    simp only [Byte.isCapital, Bool.and_eq_false_iff, decide_eq_false_iff_not,
      UInt8.le_iff_toNat_le]
    exact Or.inl low
  rw [isBody, folded, Byte.endsField, small, Byte.isTerminator,
    distinct Byte.asterisk (by decide), distinct Byte.semicolon (by decide),
    distinct Byte.openParen (by decide),
    distinct Byte.carriageReturn (by decide),
    distinct Byte.lineFeed (by decide)]
  rfl

/-- A checksum field that digits follow to the end of the line takes them all. -/
theorem ofBytes_asterisk_digits
    {digits : List UInt8}
    (decimal : Byte.Decimal digits) :
    ofBytes (Byte.asterisk :: digits) = [field Byte.asterisk digits] := by
  have all : ∀ byte ∈ digits, isBody byte = true :=
    fun byte member => isBody_of_isDigit (decimal byte member)
  rw [ofBytes_asterisk, List.takeWhile_eq_self_iff.mpr all,
    List.dropWhile_eq_nil_iff.mpr all, ofBytes]

/-- No digit ends a line. -/
theorem unterminated_asterisk_digits
    {digits : List UInt8}
    (decimal : Byte.Decimal digits) :
    Byte.Unterminated (Byte.asterisk :: digits) := by
  rw [Byte.unterminated_cons]
  refine ⟨rfl, fun byte member => ?_⟩
  rw [← Bool.not_eq_true]
  intro ends
  rcases Byte.isTerminator_iff.mp ends with rfl | rfl
  · cases decimal _ member
  · cases decimal _ member

end Part

namespace Receiver

variable {receiver : Receiver}

/-- Bytes without an asterisk bring no mark. -/
theorem checksum_stepAll_of_not_mem
    (receiver : Receiver) {bytes : List UInt8}
    (without : Byte.asterisk ∉ bytes) :
    (receiver.stepAll bytes).command.seen.checksum =
      receiver.command.seen.checksum := by
  induction bytes generalizing receiver with
  | nil =>
      rfl
  | cons byte rest ih =>
      rw [List.mem_cons, not_or] at without
      have other : (byte == Byte.asterisk) = false := by
        rw [beq_eq_false_iff_ne]
        exact fun same => without.1 same.symm
      rw [stepAll_cons, ih _ without.2, checksum_step, other, Bool.false_and,
        Bool.or_false]

/-- Where a comment swallows the asterisk of the checksum, the line has no mark. -/
theorem unmarked_of_isComment
    (start : receiver.AtLineStart) {front digits : List UInt8}
    (unmarked : (Part.ofBytes front).any Part.isMark = false)
    (inside : (receiver.stepAll front).phase.isComment = true)
    (decimal : Byte.Decimal digits) :
    (Part.ofBytes (front ++ Byte.asterisk :: digits)).any Part.isMark =
      false := by
  have without : Byte.asterisk ∉ digits := by
    intro member
    cases decimal _ member
  rw [← checksum_stepAll start] at unmarked ⊢
  rw [stepAll_append, stepAll_cons, checksum_stepAll_of_not_mem _ without,
    checksum_step, unmarked, inside]
  rfl

/--
What has to hold for a changed body to pass: an asterisk stands outside the
comments of the body now, the number is still in sequence, and the last
checksum of the line is the sum up to the first.
-/
def Undetected (receiver : Receiver) (altered digits : List UInt8) : Prop :=
  (Part.ofBytes altered).any Part.isMark = true ∧
    ¬ receiver.policy.RefusesNumber receiver.command.expected
      (Entry.last? UInt32 .lineNumber
        (Part.entries (Part.ofBytes (altered ++ Byte.asterisk :: digits)))) ∧
    Entry.last? UInt8 .checksum
        (Part.entries (Part.ofBytes (altered ++ Byte.asterisk :: digits))) =
      some
        (Byte.sum
          (Part.covered receiver.policy.sumIncludesMark
            (Part.ofBytes (altered ++ Byte.asterisk :: digits))))

/-- The checksum of an accepted line is the sum of its body, if the line has no other. -/
theorem received_of_accepted
    (start : receiver.AtLineStart)
    {body digits : List UInt8} {terminator : UInt8}
    (ends : Byte.isTerminator terminator = true)
    {parts : List Part}
    (cut :
      Part.ofBytes (body ++ Byte.asterisk :: digits) =
        parts ++ [.field Byte.asterisk digits])
    (only : parts.any Part.isMark = false)
    (accepted :
      (receiver.complete (body ++ Byte.asterisk :: digits) terminator).verdict =
        .accepted) :
    ((Part.literal digits).fit .one : Except Fault UInt8).toOption =
      some
        (Byte.sum
          (body ++
            if receiver.policy.sumIncludesMark then [Byte.asterisk] else [])) := by
  have judged :=
    judged_complete start (body ++ Byte.asterisk :: digits) ends
  have marked :
      (Part.ofBytes (body ++ Byte.asterisk :: digits)).any Part.isMark = true := by
    rw [cut, List.any_append]
    exact Bool.or_true _
  have text : parts.flatMap Part.text = body := by
    have whole := Part.flatMap_text_ofBytes (body ++ Byte.asterisk :: digits)
    simp only [cut, List.flatMap_append, List.flatMap_cons, List.flatMap_nil,
      Part.text, List.append_nil] at whole
    exact List.append_cancel_right whole
  have entry :
      Part.entries [.field Byte.asterisk digits] =
        [⟨.checksum, Part.literal digits⟩] :=
    rfl
  have sum := judged.sum
  rw [marked, if_pos rfl, List.append_nil, cut, Part.covered_append _ only,
    text] at sum
  have received := judged.received
  rw [cut, Part.entries_append, entry, Entry.last?_append_self] at received
  have agrees := (judged.accepted.mp accepted).2
  rw [Policy.RefusesSum, marked, if_pos rfl, not_not, received, sum] at agrees
  exact agrees

/-- A body without a mark is rejected if the checksum after it is not its sum. -/
theorem rejected_of_unmarked
    (start : receiver.AtLineStart)
    (demanded : receiver.policy.requireChecksum = true)
    {body digits : List UInt8} {terminator : UInt8}
    (decimal : Byte.Decimal digits)
    (ends : Byte.isTerminator terminator = true)
    (unmarked : (Part.ofBytes body).any Part.isMark = false)
    (differs :
      ((Part.literal digits).fit .one : Except Fault UInt8).toOption ≠
        some
          (Byte.sum
            (body ++
              if receiver.policy.sumIncludesMark then [Byte.asterisk] else []))) :
    (receiver.complete (body ++ Byte.asterisk :: digits) terminator).verdict ≠
      .accepted := by
  have judged :=
    judged_complete start (body ++ Byte.asterisk :: digits) ends
  intro accepted
  have agrees := (judged.accepted.mp accepted).2
  cases inside : (receiver.stepAll body).phase.isComment with
  | true =>
      apply agrees
      rw [Policy.RefusesSum, unmarked_of_isComment start unmarked inside decimal]
      exact demanded
  | false =>
      have cut :
          Part.ofBytes (body ++ Byte.asterisk :: digits) =
            Part.ofBytes body ++ [.field Byte.asterisk digits] := by
        rw [Part.ofBytes_append_asterisk start.1 inside,
          Part.ofBytes_asterisk_digits decimal]
      exact differs (received_of_accepted start ends cut unmarked accepted)

/--
One changed byte before the checksum field is detected, unless the change goes
`Undetected`: a line that was accepted is accepted again exactly then.
-/
theorem deliveries_corrupted
    (listener : Verdict → Command → Command)
    {receiver : Receiver} (start : receiver.AtLineStart)
    (demanded : receiver.policy.requireChecksum = true)
    {body digits : List UInt8} (plain : Byte.Unterminated body)
    (decimal : Byte.Decimal digits)
    {terminator : UInt8} (ends : Byte.isTerminator terminator = true)
    {parts : List Part}
    (cut :
      Part.ofBytes (body ++ Byte.asterisk :: digits) =
        parts ++ [.field Byte.asterisk digits])
    (only : parts.any Part.isMark = false)
    (accepted :
      (receiver.deliveries listener
        (body ++ Byte.asterisk :: digits ++ [terminator])).map Prod.fst =
        [.accepted])
    {index : Nat} (inside : index < body.length)
    {byte : UInt8} (different : byte ≠ body[index])
    (inLine : Byte.isTerminator byte = false) :
    ∃ verdict record,
      receiver.deliveries listener
          (body.set index byte ++ Byte.asterisk :: digits ++ [terminator]) =
          [(verdict, record)] ∧
        (verdict = .accepted ↔
          receiver.Undetected (body.set index byte) digits) := by
  have plainDigits := Part.unterminated_asterisk_digits decimal
  have plainLine := Byte.unterminated_append.mpr ⟨plain, plainDigits⟩
  have plainAltered :=
    Byte.unterminated_append.mpr
      ⟨Byte.unterminated_set plain inLine index, plainDigits⟩
  rw [deliveries_line listener receiver plainLine ends, List.map_cons,
    List.map_nil, List.cons.injEq] at accepted
  have received := received_of_accepted start ends cut only accepted.1
  refine ⟨_, _, deliveries_line listener receiver plainAltered ends, ?_⟩
  have judged :=
    judged_complete start (body.set index byte ++ Byte.asterisk :: digits) ends
  have sum := judged.sum
  have marks
      (marked : (Part.ofBytes (body.set index byte)).any Part.isMark = true) :
      (Part.ofBytes (body.set index byte ++ Byte.asterisk :: digits)).any
          Part.isMark =
        true := by
    rw [← Bool.not_eq_false]
    intro unmarked
    rw [unmarked_of_append start unmarked] at marked
    cases marked
  constructor
  · intro passed
    have marked :
        (Part.ofBytes (body.set index byte)).any Part.isMark = true := by
      rw [← Bool.not_eq_false]
      intro unmarked
      refine rejected_of_unmarked start demanded decimal ends unmarked ?_ passed
      rw [received, Ne, Option.some.injEq, Byte.sum_append, Byte.sum_append]
      intro same
      exact
        Byte.sum_set_ne inside different
          ((UInt8.xor_left_inj _).mp same).symm
    obtain ⟨inSequence, agrees⟩ := judged.accepted.mp passed
    rw [marks marked, if_pos rfl, List.append_nil] at sum
    rw [Policy.RefusesSum, marks marked, if_pos rfl, not_not, judged.received,
      sum] at agrees
    exact ⟨marked, inSequence, agrees⟩
  · rintro ⟨marked, inSequence, agrees⟩
    rw [marks marked, if_pos rfl, List.append_nil] at sum
    refine judged.accepted.mpr ⟨inSequence, ?_⟩
    rw [Policy.RefusesSum, marks marked, if_pos rfl, not_not, judged.received,
      sum]
    exact agrees

/-- The parts of `G1X1Y0*118`. -/
theorem ofBytes_move :
    Part.ofBytes ([71, 49, 88, 49, 89, 48] ++ Byte.asterisk :: [49, 49, 56]) =
      [.field 71 [49], .field 88 [49], .field 89 [48]] ++
        [.field Byte.asterisk [49, 49, 56]] := by
  simp +decide [Part.ofBytes]

/-- In `G1X1Y0*118` the `X` becomes a `Z`. -/
theorem deliveries_corrupted_letter :
    ∃ verdict record,
      (Receiver.new { Policy.lenient with requireChecksum := true }
          .zero).deliveries keep
          (([71, 49, 88, 49, 89, 48] : List UInt8).set 2 90 ++
            Byte.asterisk :: [49, 49, 56] ++ [Byte.lineFeed]) =
          [(verdict, record)] ∧
        (verdict = .accepted ↔
          (Receiver.new { Policy.lenient with requireChecksum := true }
            .zero).Undetected
            (([71, 49, 88, 49, 89, 48] : List UInt8).set 2 90) [49, 49, 56]) :=
  deliveries_corrupted keep (atLineStart_new _ .zero) rfl (by decide) (by decide)
    rfl ofBytes_move rfl (by decide) (by decide) (by decide) rfl

/--
Not every changed byte is detected: in `G1X1Y0*118` the `X` may become an
asterisk.  The sum of `G1` is 118 as well.
-/
theorem not_always_detected :
    ¬ ∀ (receiver : Receiver) (body digits : List UInt8) (terminator : UInt8)
        (parts : List Part) (index : Nat) (inside : index < body.length)
        (byte : UInt8),
        receiver.AtLineStart →
        receiver.policy.requireChecksum = true →
        Byte.Unterminated body →
        Byte.Decimal digits →
        Byte.isTerminator terminator = true →
        Part.ofBytes (body ++ Byte.asterisk :: digits) =
          parts ++ [.field Byte.asterisk digits] →
        parts.any Part.isMark = false →
        (receiver.deliveries keep
          (body ++ Byte.asterisk :: digits ++ [terminator])).map Prod.fst =
          [.accepted] →
        byte ≠ body[index] →
        Byte.isTerminator byte = false →
        (receiver.deliveries keep
          (body.set index byte ++ Byte.asterisk :: digits ++
            [terminator])).map Prod.fst ≠
          [.accepted] := by
  intro detected
  have rejected :=
    detected (.new { Policy.lenient with requireChecksum := true } .zero)
      [71, 49, 88, 49, 89, 48] [49, 49, 56] Byte.lineFeed _ 2 (by decide)
      Byte.asterisk (atLineStart_new _ .zero) rfl (by decide) (by decide) rfl
      ofBytes_move rfl (by decide) (by decide) rfl
  exact rejected (by decide)

end Receiver

end GcodeLink
