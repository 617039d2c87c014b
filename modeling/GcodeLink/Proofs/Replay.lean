import GcodeLink.Proofs.Capture
import GcodeLink.Proofs.Channel.Abandonment
import GcodeLink.Proofs.Recording

/-!
# Reading a stored line back

A line that goes to a file is not stored as it came: its terminator is replaced
by a line feed.  If the line carries no checksum, its terminator is part of the
sum, so that the sum of the stored line may be another one.  Nothing turns on
it.  A line without a checksum is accepted whatever its sum is, or it would not
have been stored; and the sum of a line with a checksum ends at its mark.

So a file can be played back: from the start at which a line was stored, its
stored bytes are read as one accepted line again, with the record that it had.
The sum alone may differ in that record, and it does not outlive the line.
-/

namespace GcodeLink

namespace Receiver

/-- The sum of a line does not outlive it. -/
theorem nextLine_withSum
    (receiver : Receiver) (command : Command) (sum other : UInt8) :
    (receiver.withSum sum).nextLine (command.withSum other) =
      receiver.nextLine command :=
  rfl

/-! ## A line with another terminator -/

section Terminators

variable
  (receiver : Receiver) (line : List UInt8) {first second : UInt8}
  (firstEnds : Byte.isTerminator first = true)
  (secondEnds : Byte.isTerminator second = true)

include firstEnds secondEnds

/-- Either terminator makes the same steps. -/
theorem stepAll_terminator :
    receiver.stepAll (line ++ [second]) = receiver.stepAll (line ++ [first]) := by
  rw [stepAll_append, stepAll_append, stepAll_cons, stepAll_cons, stepAll_nil,
    stepAll_nil, step_of_isTerminator _ firstEnds,
    step_of_isTerminator _ secondEnds]

/-- Either terminator completes a line in the same way, but for the sum. -/
theorem withSum_complete :
    (receiver.complete line second).withSum
        (receiver.complete line first).command.sum =
      receiver.complete line first := by
  apply withSum_absorbAll_of_stepAll
  exact receiver.stepAll_terminator line firstEnds secondEnds

/-- With a checksum on the line, the sum is the same as well. -/
theorem complete_eq_of_checksum
    (marked : (receiver.complete line first).command.seen.checksum = true) :
    receiver.complete line second = receiver.complete line first := by
  rw [complete, checksum_absorbAll, stepAll_append, stepAll_cons, stepAll_nil,
    checksum_step_of_isTerminator _ firstEnds] at marked
  apply absorbAll_eq_of_marked marked
  exact receiver.stepAll_terminator line firstEnds secondEnds

/-- A line that is accepted with one terminator is accepted with the other. -/
theorem verdict_complete_of_accepted
    (accepted : (receiver.complete line first).verdict = .accepted) :
    (receiver.complete line second).verdict = .accepted := by
  cases marked : (receiver.complete line first).command.seen.checksum with
  | true =>
      rw [receiver.complete_eq_of_checksum line firstEnds secondEnds marked]
      exact accepted
  | false =>
      rw [← receiver.withSum_complete line secondEnds firstEnds]
      exact Policy.judge_withSum_of_unmarked marked accepted _

/-- The record of an accepted line is the same with either terminator, but for the sum. -/
theorem withSum_delivered_complete
    (accepted : (receiver.complete line first).verdict = .accepted) :
    (receiver.complete line second).delivered.withSum
        (receiver.complete line first).delivered.sum =
      (receiver.complete line first).delivered := by
  apply withSum_delivered (receiver.withSum_complete line firstEnds secondEnds)
  rw [accepted,
    receiver.verdict_complete_of_accepted line firstEnds secondEnds accepted]

/-- The next line starts from the same state after either terminator. -/
theorem nextLine_complete
    (accepted : (receiver.complete line first).verdict = .accepted) :
    (receiver.complete line second).nextLine
        (receiver.complete line second).delivered =
      (receiver.complete line first).nextLine
        (receiver.complete line first).delivered := by
  rw [← nextLine_withSum _ _ (receiver.complete line first).command.sum
      (receiver.complete line first).delivered.sum,
    receiver.withSum_complete line firstEnds secondEnds,
    receiver.withSum_delivered_complete line firstEnds secondEnds accepted]

end Terminators

/--
A line that was accepted is accepted once more when it comes with a line feed.
Its record is the same but for the sum, or the very same if it has a checksum,
and it leaves the receiver as it did before.
-/
theorem deliveries_replayed
    (receiver : Receiver) {line : List UInt8} {terminator : UInt8}
    (plain : Byte.Unterminated line)
    (ends : Byte.isTerminator terminator = true)
    (accepted : (receiver.complete line terminator).verdict = .accepted) :
    ∃ replayed,
      (∀ listener,
        receiver.deliveries listener (line ++ [Byte.lineFeed]) =
          [(.accepted, replayed)]) ∧
        (let record := (receiver.complete line terminator).delivered
         replayed.withSum record.sum = record ∧
          (record.seen.checksum = true → replayed = record) ∧
          receiver.pushAll keep (line ++ [Byte.lineFeed]) =
            (receiver.complete line terminator).nextLine record) := by
  have feeds : Byte.isTerminator Byte.lineFeed = true := rfl
  refine ⟨(receiver.complete line Byte.lineFeed).delivered, ?_, ?_, ?_, ?_⟩
  · intro listener
    rw [deliveries_line listener receiver plain feeds,
      receiver.verdict_complete_of_accepted line ends feeds accepted]
  · exact receiver.withSum_delivered_complete line ends feeds accepted
  · intro marked
    rw [seen_delivered] at marked
    rw [receiver.complete_eq_of_checksum line ends feeds marked]
  · rw [pushAll_line keep receiver plain feeds]
    exact receiver.nextLine_complete line ends feeds accepted

end Receiver

namespace Channel

variable {State : Type} (operations : Machine State)

/-! ## Lines that are stored -/

/-- Whatever is written during a segment is the line of that segment, accepted and stored. -/
theorem stored_of_write
    {channel : Channel State} {text : List UInt8} {terminator : UInt8}
    (plain : Byte.Unterminated text)
    (ends : Byte.isTerminator terminator = true)
    {calls : List Call}
    (made :
      (channel.readSegment operations .empty Line.ofBytes
          (text, terminator)).outlet.calls =
        channel.outlet.calls ++ calls)
    {data : List UInt8} {failure : Option StorageFailure}
    (written : Call.write data failure ∈ calls) :
    ∃ line : SentLine,
      line.text = text ∧ line.terminator = terminator ∧ data = line.stored ∧
        Disposition.ofLine channel.outlet.capturing
          (channel.receiver.complete text terminator).verdict
          (channel.receiver.complete text terminator).delivered = .store := by
  by_cases empty : text = []
  · rw [readSegment, if_pos empty, List.self_eq_append_right] at made
    rw [made] at written
    cases written
  by_cases fits : text.length ≤ Framer.longestLine
  · let line : SentLine :=
      { text, terminator, extra := [], nonempty := empty, fits, plain, ends
        blank := List.forall_mem_nil _ }
    refine ⟨line, rfl, rfl, ?_⟩
    have read := channel.readLine_eq operations line
    rw [readLine] at read
    rw [read, Outlet.calls_route, List.append_cancel_left_eq] at made
    rw [← made] at written
    obtain ⟨stores, same⟩ := Disposition.eq_store_of_write written
    exact ⟨same.trans line.bytes_endWithLineFeed, stores⟩
  · -- a line that is too long is answered, and nothing else is done
    rw [readSegment, if_neg empty, if_neg fits, Outlet.calls_record,
      List.append_cancel_left_eq] at made
    rw [← made] at written
    cases List.mem_singleton.mp written

/--
What a run writes can be read back.  If anything is written during a segment of
its stream, the line of the segment was accepted and routed with its record; and
the bytes that were written, read from the same start of a line, are one
accepted line.  Its record is that record, but for the sum if the line carries
no checksum, and what follows starts from the same state again.
-/
theorem run_replays
    {channel : Channel State} (start : channel.receiver.AtLineStart)
    {signals : List Signal} (unended : Signal.ended ∉ signals)
    {front back : List (List UInt8 × UInt8)}
    {text : List UInt8} {terminator : UInt8}
    (cut :
      Segment.terminated [] (signals.filterMap Signal.byte?) =
        front ++ (text, terminator) :: back)
    {before after : Channel State}
    (reached : channel.readSegments operations front = before)
    (read :
      before.readSegment operations .empty Line.ofBytes (text, terminator) =
        after)
    {calls : List Call}
    (made : after.outlet.calls = before.outlet.calls ++ calls)
    {data : List UInt8} {failure : Option StorageFailure}
    (written : Call.write data failure ∈ calls) :
    channel.run operations signals = after.readSegments operations back ∧
      before.receiver.AtLineStart ∧ before.outlet.capturing = true ∧
      ∃ record replayed,
        (∀ listener,
          before.receiver.deliveries listener (text ++ [terminator]) =
            [(.accepted, record)]) ∧
          after.outlet =
            (before.outlet.route operations .accepted record
              (Line.ofBytes (text ++ [terminator]))).outlet ∧
          (∀ listener,
            before.receiver.deliveries listener data =
              [(.accepted, replayed)]) ∧
          replayed.withSum record.sum = record ∧
          (record.seen.checksum = true → replayed = record) ∧
          before.receiver.pushAll Receiver.keep data = after.receiver := by
  have shaped : ∀ segment ∈ front ++ (text, terminator) :: back,
      Byte.Unterminated segment.1 ∧ Byte.isTerminator segment.2 = true := by
    intro segment member
    rw [← cut] at member
    exact Segment.unterminated_of_mem Byte.unterminated_nil member
  obtain ⟨plain, ends⟩ :=
    shaped (text, terminator) (List.mem_append_right front List.mem_cons_self)
  have fresh : before.receiver.AtLineStart := by
    rw [← reached]
    apply atLineStart_foldl_readSegment operations .empty Line.ofBytes start
    intro segment member
    exact (shaped segment (List.mem_append_left _ member)).2
  subst read
  obtain ⟨line, rfl, rfl, rfl, stores⟩ :=
    stored_of_write operations plain ends made written
  obtain ⟨accepted, capturing⟩ := Disposition.accepted_of_store stores
  have routed := before.readLine_eq operations line
  have record :=
    before.outlet.command_route operations (by rw [stores]; exact nofun)
      (Line.ofBytes line.read)
  obtain ⟨replayed, again, same, marked, left⟩ :=
    before.receiver.deliveries_replayed plain ends accepted
  refine
    ⟨?_, fresh, capturing, _, replayed, ?_, ?_, again, same, marked, ?_⟩
  · rw [(channel.runWithin_segments operations unended).2, cut, readSegments,
      List.foldl_append, List.foldl_cons, ← reached]
    rfl
  · intro listener
    rw [Receiver.deliveries_line listener _ plain ends, accepted]
  · rw [← readLine, routed, ← accepted]
    rfl
  · rw [← readLine, routed]
    dsimp only
    rw [record]
    exact left

/-- The line `X5` is written with a line feed for its carriage return, and read back. -/
theorem run_replays_move :
    let signals := [Signal.byte 88, .byte 53, .byte 13]
    let after :=
      writing.readSegment Machine.tally .empty Line.ofBytes ([88, 53], 13)
    writing.run Machine.tally signals =
        after.readSegments Machine.tally [([], Byte.lineFeed)] ∧
      writing.receiver.AtLineStart ∧ writing.outlet.capturing = true ∧
      ∃ record replayed,
        (∀ listener,
          writing.receiver.deliveries listener ([88, 53] ++ [13]) =
            [(.accepted, record)]) ∧
          after.outlet =
            (writing.outlet.route Machine.tally .accepted record
              (Line.ofBytes ([88, 53] ++ [13]))).outlet ∧
          (∀ listener,
            writing.receiver.deliveries listener [88, 53, 10] =
              [(.accepted, replayed)]) ∧
          replayed.withSum record.sum = record ∧
          (record.seen.checksum = true → replayed = record) ∧
          writing.receiver.pushAll Receiver.keep [88, 53, 10] =
            after.receiver := by
  intro signals after
  have cut :
      Segment.terminated [] (signals.filterMap Signal.byte?) =
        [] ++ ([88, 53], 13) :: [([], Byte.lineFeed)] := by
    decide
  have made :
      after.outlet.calls =
        writing.outlet.calls ++ [.write [88, 53, 10] none, .reply .ok] := by
    decide
  exact
    run_replays Machine.tally (Receiver.atLineStart_new _ _) (by decide) cut
      rfl rfl made List.mem_cons_self

end Channel

end GcodeLink
