import GcodeLink.Proofs.Checksum

/-!
# Comments between fields

A comment between parentheses closes the field before it, as the letter or the
asterisk after it would have done.  The two readings of a line, with the comment
and without it, are out of step from the parenthesis on: one of them has let the
field take effect and passes through the comment, the other has not reached the
byte that does it.  They meet at that byte, and nothing of the comment is left
but its part in the sum.

The sum decides about the line, however, if a checksum follows the comment.  So
the comment can make the difference between a line that is accepted and one that
is not, and with it that of whether the number of the line was counted.
-/

namespace GcodeLink

/-- Nothing is open, or a field that no filename can follow. -/
def Phase.isPlain : Phase → Bool
  | .idle => true
  | .field opened _ => opened ≠ .m
  | .comment _ | .filename => false

/-- A line with a comment between parentheses at one place. -/
def Byte.commented (front inside back : List UInt8) : List UInt8 :=
  front ++ (openParen :: (inside ++ closeParen :: back))

theorem Byte.commented_append (front inside back rest : List UInt8) :
    commented front inside (back ++ rest) =
      commented front inside back ++ rest := by
  rw [commented, commented, List.append_assoc, List.cons_append,
    List.append_assoc, List.cons_append]

theorem Byte.unterminated_commented
    {front inside back : List UInt8}
    (frontPlain : Unterminated front) (insidePlain : Unterminated inside)
    (backPlain : Unterminated back) :
    Unterminated (commented front inside back) := by
  rw [commented, unterminated_append, unterminated_cons, unterminated_append,
    unterminated_cons]
  exact ⟨frontPlain, rfl, insidePlain, rfl, backPlain⟩

namespace Receiver

/-! ## Through a comment -/

/--
Where a comment may stand, a field that is open takes effect in the same way
whichever byte closes it.
-/
theorem exists_settled
    {receiver : Receiver} (plain : receiver.phase.isPlain = true) :
    ∃ settled : Receiver,
      settled.phase = .idle ∧
        ∀ byte, Byte.endsField (Byte.fold byte) = true →
          receiver.step byte = settled.step byte := by
  cases inPhase : receiver.phase with
  | idle =>
      exact ⟨receiver, inPhase, fun _ _ => rfl⟩
  | field field value =>
      rw [inPhase, Phase.isPlain, decide_eq_true_eq] at plain
      refine
        ⟨{ receiver with
            phase := .idle
            command := receiver.command.settle receiver.scale field value },
          rfl, ?_⟩
      intro byte ends
      rw [step_of_endsField inPhase ends, settleField_eq,
        Field.namesFile_of_ne_m plain, Bool.false_and,
        if_neg Bool.false_ne_true]
  | comment _ | filename =>
      rw [inPhase] at plain
      cases plain

/-- After a comment, the byte that could have closed the field finds everything as without it. -/
theorem stepAll_commented
    {receiver : Receiver} {front inside : List UInt8}
    (between : (receiver.stepAll front).phase.isPlain = true)
    (inner : ∀ byte ∈ inside, Part.isInside byte = true)
    {next : UInt8} (closes : Byte.endsField (Byte.fold next) = true)
    (rest : List UInt8) :
    receiver.stepAll (Byte.commented front inside (next :: rest)) =
      receiver.stepAll (front ++ next :: rest) := by
  obtain ⟨settled, idle, settles⟩ := exists_settled between
  have through :
      settled.stepAll (Byte.openParen :: (inside ++ [Byte.closeParen])) =
        settled := by
    rw [← List.cons_append, stepAll_append, stepAll_openParen idle inner,
      stepAll_cons, stepAll_nil, step_closeParen rfl, ← idle]
  have cut :
      Byte.openParen :: (inside ++ Byte.closeParen :: next :: rest) =
        (Byte.openParen :: (inside ++ [Byte.closeParen])) ++ next :: rest := by
    rw [List.cons_append, List.append_assoc]
    rfl
  calc
    receiver.stepAll (Byte.commented front inside (next :: rest)) =
        settled.stepAll
          (Byte.openParen :: (inside ++ Byte.closeParen :: next :: rest)) := by
      rw [Byte.commented, stepAll_append, stepAll_cons, settles _ rfl,
        ← stepAll_cons]
    _ = settled.stepAll (next :: rest) := by
      rw [cut, stepAll_append, through]
    _ = receiver.stepAll (front ++ next :: rest) := by
      rw [stepAll_append, stepAll_cons, stepAll_cons, settles _ closes]

/--
A comment between two fields leaves a line as it is, the sum aside.  If the sum
makes no difference to whether the line is accepted, the record is the same but
for the sum; if it does, the awaited number may be another one as well.  After a
checksum field the comment changes nothing at all.
-/
theorem deliveries_commented
    (listener : Verdict → Command → Command)
    {receiver : Receiver} (start : receiver.AtLineStart)
    {front inside body : List UInt8} {terminator : UInt8}
    (frontPlain : Byte.Unterminated front)
    (between : (receiver.pushAll listener front).phase.isPlain = true)
    (insidePlain : Byte.Unterminated inside)
    (inner : Byte.closeParen ∉ inside)
    (bodyPlain : Byte.Unterminated body)
    (ends : Byte.isTerminator terminator = true)
    (closes : ∀ first ∈ (body ++ [terminator]).head?,
      Byte.endsField (Byte.fold first) = true) :
    ∃ verdict record verdict' record',
      receiver.deliveries listener (front ++ (body ++ [terminator])) =
          [(verdict, record)] ∧
        receiver.deliveries listener
            (Byte.commented front inside (body ++ [terminator])) =
          [(verdict', record')] ∧
        { record' with sum := record.sum, expected := record.expected } =
          record ∧
        (verdict'.isAccepted = verdict.isAccepted →
          record'.withSum record.sum = record) ∧
        ((Part.ofBytes front).any Part.isMark = true →
          verdict' = verdict ∧ record' = record) := by
  obtain ⟨next, rest, follows⟩ :
      ∃ next rest, body ++ [terminator] = next :: rest :=
    List.exists_cons_of_ne_nil (List.concat_ne_nil terminator body)
  have closing : Byte.endsField (Byte.fold next) = true := by
    apply closes
    rw [follows]
    exact Option.mem_some_self next
  rw [pushAll_of_unterminated listener receiver frontPlain, phase_absorbAll]
    at between
  have plain : ∀ byte ∈ inside, Part.isInside byte = true := by
    intro byte member
    rw [Part.isInside, bne_iff_ne]
    rintro rfl
    exact inner member
  have steps :
      receiver.stepAll (Byte.commented front inside (body ++ [terminator])) =
        receiver.stepAll (front ++ (body ++ [terminator])) := by
    rw [follows]
    exact stepAll_commented between plain closing rest
  have bare :=
    deliveries_line listener receiver
      (Byte.unterminated_append.mpr ⟨frontPlain, bodyPlain⟩) ends
  have full :=
    deliveries_line listener receiver
      (Byte.unterminated_commented frontPlain insidePlain bodyPlain) ends
  rw [List.append_assoc] at bare
  rw [← Byte.commented_append] at full
  have same := withSum_absorbAll_of_stepAll steps
  rw [Byte.commented_append, ← List.append_assoc] at same
  refine
    ⟨_, _, _, _, bare, full, delivered_of_withSum same,
      withSum_delivered same, ?_⟩
  intro marked
  rw [← checksum_stepAll start] at marked
  have equal := absorbAll_eq_of_marked marked steps
  rw [← Byte.commented, Byte.commented_append, ← List.append_assoc] at equal
  exact ⟨congrArg verdict equal, congrArg delivered equal⟩

/-- In `X1(*G2)Y2` the comment stands between two coordinates. -/
theorem deliveries_commented_move :
    let receiver := Receiver.new .lenient .zero
    ∃ verdict record verdict' record',
      receiver.deliveries keep ([88, 49] ++ ([89, 50] ++ [Byte.lineFeed])) =
          [(verdict, record)] ∧
        receiver.deliveries keep
            (Byte.commented [88, 49] [42, 71, 50]
              ([89, 50] ++ [Byte.lineFeed])) =
          [(verdict', record')] ∧
        { record' with sum := record.sum, expected := record.expected } =
          record ∧
        (verdict'.isAccepted = verdict.isAccepted →
          record'.withSum record.sum = record) ∧
        ((Part.ofBytes [88, 49]).any Part.isMark = true →
          verdict' = verdict ∧ record' = record) := by
  have closes : ∀ first ∈ ([89, 50] ++ [Byte.lineFeed]).head?,
      Byte.endsField (Byte.fold first) = true := by
    rintro first ⟨⟩
    rfl
  exact
    deliveries_commented keep (atLineStart_new .lenient .zero) (by decide)
      (by decide) (by decide) (by decide) (by decide) rfl closes

/--
A comment may cost a line its number: `N0*126` is accepted, and the number after
it awaited; `N0()*126` has another sum, and its number is awaited once more.
-/
theorem comment_not_always_transparent :
    ¬ ∀ (receiver : Receiver) (front inside body : List UInt8)
        (terminator : UInt8),
        receiver.AtLineStart → Byte.Unterminated front →
        (receiver.pushAll keep front).phase.isPlain = true →
        Byte.Unterminated inside → Byte.closeParen ∉ inside →
        Byte.Unterminated body → Byte.isTerminator terminator = true →
        (∀ first ∈ (body ++ [terminator]).head?,
          Byte.endsField (Byte.fold first) = true) →
        ∃ verdict record verdict' record',
          receiver.deliveries keep (front ++ (body ++ [terminator])) =
              [(verdict, record)] ∧
            receiver.deliveries keep
                (Byte.commented front inside (body ++ [terminator])) =
              [(verdict', record')] ∧
            record'.withSum record.sum = record ∧
            ((Part.ofBytes front).any Part.isMark = true →
              verdict' = verdict ∧ record' = record) := by
  intro transparent
  have closes : ∀ first ∈ ([42, 49, 50, 54] ++ [Byte.lineFeed]).head?,
      Byte.endsField (Byte.fold first) = true := by
    rintro first ⟨⟩
    rfl
  obtain ⟨verdict, record, verdict', record', bare, full, same, _⟩ :=
    transparent (new .lenient .zero) [78, 48] [] [42, 49, 50, 54]
      Byte.lineFeed (atLineStart_new .lenient .zero) (by decide) (by decide)
      (by decide) (by decide) (by decide) rfl closes
  have counted :
      ((new .lenient .zero).deliveries keep
        ([78, 48] ++ ([42, 49, 50, 54] ++ [Byte.lineFeed]))).map
          (·.2.expected) = [1] := by
    decide
  have uncounted :
      ((new .lenient .zero).deliveries keep
        (Byte.commented [78, 48] []
          ([42, 49, 50, 54] ++ [Byte.lineFeed]))).map
          (·.2.expected) = [0] := by
    decide
  rw [bare, List.map_singleton, List.singleton_inj] at counted
  rw [full, List.map_singleton, List.singleton_inj] at uncounted
  rw [← same] at counted
  exact absurd (uncounted.symm.trans counted) (by decide)

end Receiver

end GcodeLink
