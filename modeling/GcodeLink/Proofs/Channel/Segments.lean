import GcodeLink.Channel.Run
import GcodeLink.Proofs.Channel.Lines
import GcodeLink.Proofs.Framing

/-!
# A run reads a stream segment by segment

A run goes through three layers: the framer holds a line back until it is
complete, the line is searched for its terminator once more, and its bytes are
pushed one at a time.  None of them loses, doubles or cuts off a byte.  A run
does what its segments do one after the other: an empty segment does nothing, a
segment that fits a line is pushed byte by byte with its terminator, and any
other is answered by one reply.
-/

namespace GcodeLink

/-- The byte that the stream delivers, if it delivers one. -/
def Signal.byte? : Signal → Option UInt8
  | .byte delivered => some delivered
  | .pending | .ended => none

namespace Segment

/--
The segments of a stream of bytes, each with its terminator, after the given
bytes of the first one.  A line feed closes the last segment.
-/
def terminated (front : List UInt8) :
    List UInt8 → List (List UInt8 × UInt8)
  | [] => [(front, Byte.lineFeed)]
  | byte :: rest =>
      if Byte.isTerminator byte then
        (front, byte) :: terminated [] rest
      else
        terminated (front ++ [byte]) rest

/--
The segments that a stream of bytes closes, each with its terminator, after the
given bytes of the first one.
-/
def closed (front : List UInt8) :
    List UInt8 → List (List UInt8 × UInt8)
  | [] => []
  | byte :: rest =>
      if Byte.isTerminator byte then
        (front, byte) :: closed [] rest
      else
        closed (front ++ [byte]) rest

/-- The bytes of the segment that a stream of bytes leaves open. -/
def opened (front : List UInt8) : List UInt8 → List UInt8
  | [] => front
  | byte :: rest =>
      if Byte.isTerminator byte then
        opened [] rest
      else
        opened (front ++ [byte]) rest

/-- The open segment comes last, and a line feed closes it. -/
theorem terminated_eq (front bytes : List UInt8) :
    terminated front bytes =
      closed front bytes ++ [(opened front bytes, Byte.lineFeed)] := by
  induction bytes generalizing front with
  | nil =>
      rfl
  | cons byte rest ih =>
      rw [terminated, closed, opened]
      split
      · rw [ih, List.cons_append]
      · exact ih _

/-- A segment holds no terminator but the one that closes it. -/
theorem unterminated_of_mem
    {front bytes : List UInt8} (plain : Byte.Unterminated front)
    {segment : List UInt8 × UInt8} (member : segment ∈ terminated front bytes) :
    Byte.Unterminated segment.1 ∧ Byte.isTerminator segment.2 = true := by
  induction bytes generalizing front with
  | nil =>
      rw [terminated, List.mem_singleton] at member
      rw [member]
      exact ⟨plain, rfl⟩
  | cons byte rest ih =>
      rw [terminated] at member
      split at member
      · next ends =>
          rcases List.mem_cons.mp member with rfl | later
          · exact ⟨plain, ends⟩
          · exact ih Byte.unterminated_nil later
      · next inside =>
          exact ih (Byte.unterminated_concat plain inside) member

end Segment

variable {State : Type}

/--
What one segment does to a channel.  The bytes of the segment come with the
buffer `early`, and its terminator with the one that `hold` puts it in.
-/
def Channel.readSegment
    (operations : Machine State) (early : Line) (hold : List UInt8 → Line)
    (channel : Channel State) (segment : List UInt8 × UInt8) :
    Channel State :=
  if segment.1 = [] then
    channel
  else if segment.1.length ≤ Framer.longestLine then
    ((channel.pushAll operations early segment.1).1.push operations
      (hold (segment.1 ++ [segment.2])) segment.2).1
  else
    { channel with outlet := channel.outlet.record (.reply .lineTooLong) }

/-- What a run that goes on makes of one signal. -/
theorem Run.step_of_running
    (operations : Machine State) {run : Run State}
    (running : run.finished = false) (signal : Signal) :
    run.step operations signal =
      { channel :=
          ((run.framer.step signal).2.map
            (handle operations run.channel)).getD run.channel
        framer := (run.framer.step signal).1
        reads := run.reads + 1
        finished := decide ((run.framer.step signal).2 = some .ended) } := by
  rw [step, running, if_neg Bool.false_ne_true]
  cases run.framer.step signal with
  | mk framer answer =>
      cases answer with
      | none =>
          simp
      | some poll =>
          simp

section Reading

variable
  (operations : Machine State) (early : Line) {hold : List UInt8 → Line}
  (holds : ∀ bytes : List UInt8,
    bytes.length ≤ lineCapacity → (hold bytes).bytes = bytes)

include holds

/-- A whole line that the framer delivers does what its segment does. -/
theorem Channel.pushLine_of_held
    (channel : Channel State) {line : Line}
    {text : List UInt8} {terminator : UInt8}
    (plain : Byte.Unterminated text)
    (ends : Byte.isTerminator terminator = true)
    (nonempty : text ≠ []) (fits : text.length ≤ Framer.longestLine)
    (held : line.bytes = text ++ [terminator]) :
    (channel.pushLine operations line).1 =
      channel.readSegment operations early hold (text, terminator) := by
  have room : (text ++ [terminator]).length ≤ lineCapacity := by
    rw [List.length_append]
    exact Nat.succ_le_succ fits
  rw [channel.pushLine_of_terminated operations plain ends held, readSegment,
    if_neg nonempty, if_pos fits]
  exact channel.pushAll_line_of_held operations plain ends held (holds _ room)

namespace Run

/-- What a run does with what the framer makes of a closed segment is what the segment does. -/
theorem handle_close
    (channel : Channel State) {framer : Framer}
    {bytes : List UInt8} {terminator : UInt8}
    (carries : framer.Carries bytes)
    (plain : Byte.Unterminated bytes)
    (ends : Byte.isTerminator terminator = true) :
    ((framer.close terminator).2.map (handle operations channel)).getD
        channel =
      channel.readSegment operations early hold (bytes, terminator) := by
  have owed := (carries.close terminator).2
  by_cases empty : bytes = []
  · subst empty
    rw [Option.map_eq_none_iff.mp owed, Channel.readSegment, if_pos rfl]
    rfl
  · rw [Segment.closedBy, List.isEmpty_eq_false_iff.mpr empty,
      if_neg Bool.false_ne_true] at owed
    by_cases fits : bytes.length ≤ Framer.longestLine
    · rw [if_pos fits] at owed
      obtain ⟨poll, answer, report⟩ := Option.map_eq_some_iff.mp owed
      cases poll with
      | line line =>
          rw [answer]
          exact
            channel.pushLine_of_held operations early holds plain ends empty
              fits (Report.line.inj report)
      | pending | tooLong | ended =>
          cases report
    · rw [if_neg fits] at owed
      obtain ⟨poll, answer, report⟩ := Option.map_eq_some_iff.mp owed
      cases poll with
      | tooLong =>
          rw [answer, Channel.readSegment, if_neg empty, if_neg fits]
          rfl
      | pending | line _ | ended =>
          cases report

/-- An end of the stream closes a segment, and the run finishes if the end is what it learns. -/
theorem step_ended
    {run : Run State} (running : run.finished = false)
    {bytes : List UInt8}
    (carries : run.framer.Carries bytes)
    (plain : Byte.Unterminated bytes) :
    (run.step operations .ended).framer.Carries [] ∧
      (run.step operations .ended).finished =
        decide (run.framer.finish.2 = .ended) ∧
      (run.step operations .ended).channel =
        run.channel.readSegment operations early hold
          (bytes, Byte.lineFeed) := by
  rw [step_of_running operations running]
  refine ⟨carries.finish.1, ?_, ?_⟩
  · simp [Framer.step]
  · rw [← handle_close operations early holds run.channel carries plain rfl,
      Framer.step, Framer.finish]
    cases (run.framer.close Byte.lineFeed).2 with
    | none => rfl
    | some poll => rfl

/-- Once the stream has ended, a run reads its last segment and finishes. -/
theorem drive_ended
    {run : Run State} (running : run.finished = false)
    {bytes : List UInt8}
    (carries : run.framer.Carries bytes)
    (plain : Byte.Unterminated bytes) :
    (run.drive operations [.ended, .ended]).finished = true ∧
      (run.drive operations [.ended, .ended]).channel =
        run.channel.readSegment operations early hold
          (bytes, Byte.lineFeed) := by
  obtain ⟨empty, _, read⟩ :=
    step_ended operations early holds running carries plain
  rw [drive_cons, drive_cons, drive_nil]
  cases finished : (run.step operations .ended).finished with
  | true =>
      rw [step_of_finished operations finished]
      exact ⟨finished, read⟩
  | false =>
      -- a line was left open, so that the end is learnt at the second question
      obtain ⟨_, ended, still⟩ :=
        step_ended operations early holds finished empty
          Byte.unterminated_nil
      refine ⟨?_, ?_⟩
      · rw [ended, empty.finish_of_nil]
        rfl
      · rw [still, read]
        rfl

/--
As long as the stream goes on, a run has done what the closed segments do, and
its framer carries the open one.
-/
theorem drive_closed
    {run : Run State} (running : run.finished = false)
    {bytes : List UInt8}
    (carries : run.framer.Carries bytes)
    (plain : Byte.Unterminated bytes)
    {signals : List Signal} (unended : Signal.ended ∉ signals) :
    (run.drive operations signals).finished = false ∧
      (run.drive operations signals).framer.Carries
        (Segment.opened bytes (signals.filterMap Signal.byte?)) ∧
      Byte.Unterminated
        (Segment.opened bytes (signals.filterMap Signal.byte?)) ∧
      (run.drive operations signals).channel =
        (Segment.closed bytes (signals.filterMap Signal.byte?)).foldl
          (Channel.readSegment operations early hold) run.channel := by
  induction signals generalizing run bytes with
  | nil =>
      exact ⟨running, carries, plain, rfl⟩
  | cons signal rest ih =>
      have later : Signal.ended ∉ rest :=
        fun member => unended (List.mem_cons_of_mem signal member)
      rw [drive_cons, step_of_running operations running]
      cases signal with
      | pending =>
          refine ih ?_ ?_ plain later
          · rfl
          · exact carries
      | ended =>
          exact absurd List.mem_cons_self unended
      | byte byte =>
          have delivered :
              (Signal.byte byte :: rest).filterMap Signal.byte? =
                byte :: rest.filterMap Signal.byte? :=
            rfl
          rw [delivered, Segment.opened, Segment.closed, Framer.step]
          split
          · next ends =>
              have goes :
                  decide ((run.framer.close byte).2 = some .ended) = false :=
                decide_eq_false (run.framer.close_ne_ended byte)
              rw [handle_close operations early holds run.channel carries
                plain ends]
              refine ih ?_ ?_ Byte.unterminated_nil later
              · exact goes
              · exact (carries.close byte).1
          · next inside =>
              refine ih ?_ ?_ (Byte.unterminated_concat plain inside) later
              · rfl
              · exact carries.take byte

/-- From any segment on, a run leaves what the segments of the stream leave. -/
theorem drive_segments
    {run : Run State} (running : run.finished = false)
    {bytes : List UInt8}
    (carries : run.framer.Carries bytes)
    (plain : Byte.Unterminated bytes)
    {signals : List Signal} (unended : Signal.ended ∉ signals) :
    (run.drive operations (signals ++ [.ended, .ended])).finished = true ∧
      (run.drive operations (signals ++ [.ended, .ended])).channel =
        (Segment.terminated bytes (signals.filterMap Signal.byte?)).foldl
          (Channel.readSegment operations early hold) run.channel := by
  obtain ⟨goesOn, carriesOn, plainOn, read⟩ :=
    drive_closed operations early holds running carries plain unended
  rw [drive_append, Segment.terminated_eq, List.foldl_append, ← read]
  exact drive_ended operations early holds goesOn carriesOn plainOn

end Run

end Reading

namespace Channel

/-- The channel after segments in order.  In which buffers their bytes come is of no account. -/
def readSegments
    (operations : Machine State) (channel : Channel State)
    (segments : List (List UInt8 × UInt8)) : Channel State :=
  segments.foldl (readSegment operations .empty Line.ofBytes) channel

/-- A complete run reads the segments of its stream. -/
theorem runWithin_segments
    (operations : Machine State) (channel : Channel State)
    {signals : List Signal} (unended : Signal.ended ∉ signals) :
    (channel.runWithin operations none signals).finished = true ∧
      channel.run operations signals =
        channel.readSegments operations
          (Segment.terminated [] (signals.filterMap Signal.byte?)) := by
  rw [run, runWithin, Run.schedule_none]
  exact
    Run.drive_segments operations .empty (fun _ => Line.bytes_ofBytes) rfl
      Framer.carries_new Byte.unterminated_nil unended

end Channel

/--
A run over a stream that ends finishes, and leaves its channel and everything
behind it, the calls included, as the segments of the stream leave them.  Pauses
have no part in it, nor has what a buffer holds before the terminator.
-/
theorem Channel.run_segments
    (operations : Machine State) (early : Line) {hold : List UInt8 → Line}
    (holds : ∀ bytes : List UInt8,
      bytes.length ≤ lineCapacity → (hold bytes).bytes = bytes)
    (channel : Channel State)
    {signals : List Signal} (unended : Signal.ended ∉ signals) :
    (channel.runWithin operations none signals).finished = true ∧
      channel.run operations signals =
        (Segment.terminated [] (signals.filterMap Signal.byte?)).foldl
          (readSegment operations early hold) channel := by
  rw [Channel.run, runWithin, Run.schedule_none]
  exact
    Run.drive_segments operations early holds rfl Framer.carries_new
      Byte.unterminated_nil unended

/-- The stream `G1`, an empty line and an open `M` are three segments, with a pause in the first. -/
theorem Channel.run_segments_pause :
    ((Channel.new (.new .lenient .zero) 0).runWithin Machine.tally none
        [.byte 71, .pending, .byte 49, .byte 13, .byte 10,
          .byte 77]).finished = true ∧
      (Channel.new (.new .lenient .zero) 0).run Machine.tally
          [.byte 71, .pending, .byte 49, .byte 13, .byte 10, .byte 77] =
        (Segment.terminated []
          ([.byte 71, .pending, .byte 49, .byte 13, .byte 10,
            .byte 77].filterMap Signal.byte?)).foldl
          (readSegment Machine.tally .empty Line.ofBytes)
          (.new (.new .lenient .zero) 0) :=
  run_segments Machine.tally .empty (fun _ => Line.bytes_ofBytes)
    (.new (.new .lenient .zero) 0) (by decide)

end GcodeLink
