import GcodeLink.Proofs.Channel.Segments
import GcodeLink.Proofs.Judgement
import GcodeLink.Proofs.Outlet

/-!
# What is in a captured file

A file is sent as a stream of lines between one that opens it and one that
closes it.  What reaches storage has to come through the framer, which drops
the empty lines between carriage returns and line feeds, through the verdict on
every line, and through the buffer in which a terminator is replaced.  It comes
out as it was sent: each accepted line that is no command on files is written
once, in order, with its own bytes and a line feed, and no other line is.

`Recording` says how the lines of a file are answered.  While a file is being
written no line gets hold of the record, so that the lines are those that the
receiver delivers to a listener that does nothing.
-/

namespace GcodeLink

/-! ## Lines as they are sent -/

/--
A line as it is sent, short enough for a buffer.  One terminator or several
close it, as a carriage return with a line feed does.
-/
structure SentLine where
  text : List UInt8
  terminator : UInt8
  /-- The terminators after the first. -/
  extra : List UInt8
  nonempty : text ≠ []
  fits : text.length ≤ Framer.longestLine
  plain : Byte.Unterminated text
  ends : Byte.isTerminator terminator = true
  blank : ∀ byte ∈ extra, Byte.isTerminator byte = true

namespace SentLine

/-- The bytes on the link. -/
def sent (line : SentLine) : List UInt8 :=
  line.text ++ line.terminator :: line.extra

/-- The bytes that reach the receiver. -/
def read (line : SentLine) : List UInt8 :=
  line.text ++ [line.terminator]

/-- The bytes that belong into a file. -/
def stored (line : SentLine) : List UInt8 :=
  line.text ++ [Byte.lineFeed]

/-- A buffer has room for the line and one terminator. -/
theorem bytes_ofBytes_read (line : SentLine) :
    (Line.ofBytes line.read).bytes = line.text ++ [line.terminator] := by
  have room : line.read.length ≤ lineCapacity := by
    rw [read, List.length_append]
    exact Nat.succ_le_succ line.fits
  exact Line.bytes_ofBytes room

/-- The line is stored with a line feed in place of its terminator. -/
theorem bytes_endWithLineFeed (line : SentLine) :
    (Line.ofBytes line.read).endWithLineFeed.bytes = line.stored :=
  Line.bytes_endWithLineFeed line.bytes_ofBytes_read line.ends

/-- The record that the line is handed over with. -/
def record (line : SentLine) (receiver : Receiver) : Command :=
  (receiver.complete line.text line.terminator).delivered

/-- An accepted line is handed over once. -/
theorem deliveries_read
    (line : SentLine) (receiver : Receiver)
    (accepted :
      (receiver.complete line.text line.terminator).verdict = .accepted) :
    receiver.deliveries Receiver.keep line.read =
      [(.accepted, line.record receiver)] := by
  rw [read, Receiver.deliveries_line _ _ line.plain line.ends, accepted]
  rfl

end SentLine

namespace Segment

/-- Bytes inside a line belong to its segment. -/
theorem terminated_append
    (front : List UInt8) {text : List UInt8}
    (plain : Byte.Unterminated text) (rest : List UInt8) :
    terminated front (text ++ rest) = terminated (front ++ text) rest := by
  induction text generalizing front with
  | nil =>
      rw [List.nil_append, List.append_nil]
  | cons byte text ih =>
      obtain ⟨inside, later⟩ := Byte.unterminated_cons.mp plain
      rw [List.cons_append, terminated, inside, if_neg Bool.false_ne_true,
        ih _ later, List.append_assoc, List.singleton_append]

end Segment

variable {State : Type} (operations : Machine State)

namespace Channel

/-- Read a line that was sent. -/
def readLine (channel : Channel State) (line : SentLine) : Channel State :=
  channel.readSegment operations .empty Line.ofBytes
    (line.text, line.terminator)

/-- Terminators between lines do nothing. -/
theorem foldl_terminated_blank
    (channel : Channel State) {blank : List UInt8}
    (ends : ∀ byte ∈ blank, Byte.isTerminator byte = true)
    (rest : List UInt8) :
    (Segment.terminated [] (blank ++ rest)).foldl
        (readSegment operations .empty Line.ofBytes) channel =
      (Segment.terminated [] rest).foldl
        (readSegment operations .empty Line.ofBytes) channel := by
  induction blank with
  | nil =>
      rfl
  | cons byte blank ih =>
      obtain ⟨first, others⟩ := List.forall_mem_cons.mp ends
      rw [List.cons_append, Segment.terminated, if_pos first, List.foldl_cons,
        readSegment, if_pos rfl]
      exact ih others

/-- The segments of lines that were sent are read as these lines. -/
theorem foldl_terminated_sent
    (channel : Channel State) (lines : List SentLine) :
    (Segment.terminated [] (lines.flatMap SentLine.sent)).foldl
        (readSegment operations .empty Line.ofBytes) channel =
      lines.foldl (readLine operations) channel := by
  induction lines generalizing channel with
  | nil =>
      rfl
  | cons line rest ih =>
      rw [List.flatMap_cons, SentLine.sent, List.append_assoc,
        List.cons_append, Segment.terminated_append [] line.plain,
        List.nil_append, Segment.terminated, if_pos line.ends,
        List.foldl_cons, foldl_terminated_blank operations _ line.blank, ih]
      rfl

/-- A run over lines that were sent reads them one after the other, and finishes. -/
theorem run_sent
    (channel : Channel State) {signals : List Signal}
    (unended : Signal.ended ∉ signals) {lines : List SentLine}
    (sent :
      signals.filterMap Signal.byte? = lines.flatMap SentLine.sent) :
    (channel.runWithin operations none signals).finished = true ∧
      channel.run operations signals =
        lines.foldl (readLine operations) channel := by
  rw [← foldl_terminated_sent operations channel lines, ← sent]
  exact channel.runWithin_segments operations unended

/-- A line that was sent is complete in its buffer when it is routed. -/
theorem readLine_eq (channel : Channel State) (line : SentLine) :
    channel.readLine operations line =
      (let complete := channel.receiver.complete line.text line.terminator
       let routed :=
        channel.outlet.route operations complete.verdict complete.delivered
          (Line.ofBytes line.read)
       { receiver := complete.nextLine routed.command
         outlet := routed.outlet }) := by
  have held := line.bytes_ofBytes_read
  have whole :
      (channel.pushAll operations (Line.ofBytes line.read)
          (line.text ++ [line.terminator])).1 =
        channel.readLine operations line := by
    rw [readLine, readSegment, if_neg line.nonempty, if_pos line.fits]
    exact
      channel.pushAll_line_of_held operations line.plain line.ends held held
  rw [← whole, pushAll_line operations channel _ line.plain line.ends]

/--
A line of which nothing is executed is read as if nobody listened, and the
calls are those of its disposition, made with the line as it is stored.
-/
theorem readLine_of_quiet
    (channel : Channel State) (line : SentLine)
    {verdict : Verdict} {record : Command}
    (read :
      channel.receiver.deliveries Receiver.keep line.read =
        [(verdict, record)])
    {disposition : Disposition}
    (decided :
      Disposition.ofLine channel.outlet.capturing verdict record = disposition)
    (quiet : disposition ≠ .execute) :
    (channel.readLine operations line).receiver =
        channel.receiver.pushAll Receiver.keep line.read ∧
      (channel.readLine operations line).outlet.calls =
        channel.outlet.calls ++
          disposition.calls operations channel.outlet.machine record
            (Line.ofBytes line.read) ∧
      (channel.readLine operations line).outlet.capturing =
        disposition.writingAfter operations channel.outlet.machine
          channel.outlet.capturing := by
  rw [SentLine.read,
    Receiver.deliveries_line Receiver.keep _ line.plain line.ends,
    List.cons.injEq, Prod.mk.injEq] at read
  obtain ⟨⟨rfl, rfl⟩, _⟩ := read
  subst decided
  have command :=
    channel.outlet.command_route operations quiet (Line.ofBytes line.read)
  rw [readLine_eq]
  refine ⟨?_, ?_, ?_⟩
  · rw [SentLine.read, Receiver.pushAll_line _ _ line.plain line.ends]
    exact congrArg (channel.receiver.complete _ _).nextLine command
  · exact channel.outlet.calls_route operations _ _ _
  · exact channel.outlet.capturing_route operations _ _ _

end Channel

/-! ## Lines of a file -/

/-- How a line that arrives while a file is being written is answered. -/
inductive Answered (line : SentLine) : Verdict → Command → List Call → Prop where
  /-- A line out of sequence is asked for again. -/
  | badLineNumber (number : UInt32) (record : Command) :
      Answered line (.rejected (.badLineNumber number)) record
        [.reply (.expectedLineNumber number), .reply (.resend record.expected)]
  /-- A line with another checksum than its sum is asked for again. -/
  | badChecksum (sum : UInt8) (record : Command) :
      Answered line (.rejected (.badChecksum sum)) record
        [.reply (.expectedChecksum sum), .reply (.resend record.expected)]
  /-- A command on files is acknowledged. -/
  | acknowledged
      {record : Command} {code : UInt16}
      (named : record.mCode? = some code)
      (onFiles : 20 ≤ code ∧ code ≤ 28) :
      Answered line .accepted record [.reply .ok]
  /-- Any other line is written. -/
  | written
      {record : Command}
      (other : ∀ code, record.mCode? = some code →
        ¬ (20 ≤ code ∧ code ≤ 28)) :
      Answered line .accepted record
        [.write line.stored none, .reply .ok]
  /-- A line that could not be written is reported. -/
  | failed
      {record : Command}
      (other : ∀ code, record.mCode? = some code →
        ¬ (20 ≤ code ∧ code ≤ 28))
      (failure : StorageFailure) :
      Answered line .accepted record
        [.write line.stored (some failure), .reply .writeFailed]

/-- The calls that the lines of a file make, each with the verdict on it and its record. -/
inductive Recording :
    List SentLine → List (Verdict × Command) → List Call → Prop where
  | nil : Recording [] [] []
  | cons
      {line : SentLine} {verdict : Verdict} {record : Command}
      {lines : List SentLine} {results : List (Verdict × Command)}
      {calls rest : List Call}
      (answered : Answered line verdict record calls)
      (later : Recording lines results rest) :
      Recording (line :: lines) ((verdict, record) :: results) (calls ++ rest)

/-- While a file is being written, a command on files that does not close it is acknowledged. -/
theorem Disposition.capturing_of_onFiles
    {record : Command} {code : UInt16}
    (named : record.mCode? = some code) (onFiles : 20 ≤ code ∧ code ≤ 28) :
    capturing record = .acknowledge := by
  have goesOn : code ≠ 29 := by
    rintro rfl
    exact absurd onFiles.2 (by decide)
  rw [capturing, named]
  exact (if_neg goesOn).trans (if_pos onFiles)

/-- While a file is being written, what is no command on files is stored. -/
theorem Disposition.capturing_of_other
    {record : Command} (stays : record.mCode? ≠ some 29)
    (other : ∀ code, record.mCode? = some code → ¬ (20 ≤ code ∧ code ≤ 28)) :
    capturing record = .store := by
  rw [capturing]
  cases code : record.mCode? with
  | none =>
      rfl
  | some code' =>
      have goesOn : code' ≠ 29 := by
        rintro rfl
        exact stays code
      exact (if_neg goesOn).trans (if_neg (other code' code))

namespace Channel

/-- While a file is being written, a line that does not close it is answered as it should. -/
theorem answered_readLine
    {channel : Channel State} (writing : channel.outlet.capturing = true)
    (line : SentLine) {verdict : Verdict} {record : Command}
    (read :
      channel.receiver.deliveries Receiver.keep line.read =
        [(verdict, record)])
    (stays : verdict = .accepted → record.mCode? ≠ some 29) :
    (channel.readLine operations line).outlet.capturing = true ∧
      (channel.readLine operations line).receiver =
        channel.receiver.pushAll Receiver.keep line.read ∧
      ∃ calls,
        Answered line verdict record calls ∧
          (channel.readLine operations line).outlet.calls =
            channel.outlet.calls ++ calls := by
  cases verdict with
  | rejected fault =>
      have decided :
          Disposition.ofLine channel.outlet.capturing (.rejected fault)
              record = .refuse fault :=
        rfl
      obtain ⟨receiver, calls, capturing⟩ :=
        channel.readLine_of_quiet operations line read decided (by rintro ⟨⟩)
      refine ⟨capturing.trans writing, receiver, _, ?_, calls⟩
      rw [SentLine.read,
        Receiver.deliveries_line _ _ line.plain line.ends, List.cons.injEq,
        Prod.mk.injEq] at read
      rcases Policy.fault_of_judge read.1.1 with rfl | rfl
      · exact Answered.badLineNumber _ record
      · exact Answered.badChecksum _ record
  | accepted =>
      have goesOn := stays rfl
      have accepted :
          Disposition.ofLine channel.outlet.capturing .accepted record =
            Disposition.capturing record := by
        rw [writing]
        rfl
      by_cases onFiles :
          ∃ code, record.mCode? = some code ∧ 20 ≤ code ∧ code ≤ 28
      · obtain ⟨code, named, range⟩ := onFiles
        obtain ⟨receiver, calls, capturing⟩ :=
          channel.readLine_of_quiet operations line read
            (accepted.trans (Disposition.capturing_of_onFiles named range))
            (by rintro ⟨⟩)
        exact
          ⟨capturing.trans writing, receiver, _,
            Answered.acknowledged named range, calls⟩
      · have other :
            ∀ code, record.mCode? = some code →
              ¬ (20 ≤ code ∧ code ≤ 28) :=
          fun code named range => onFiles ⟨code, named, range⟩
        obtain ⟨receiver, calls, capturing⟩ :=
          channel.readLine_of_quiet operations line read
            (accepted.trans (Disposition.capturing_of_other goesOn other))
            (by rintro ⟨⟩)
        rw [Disposition.calls, line.bytes_endWithLineFeed] at calls
        refine ⟨capturing.trans writing, receiver, _, ?_, calls⟩
        cases (operations.write channel.outlet.machine line.stored).2 with
        | none =>
            exact Answered.written other
        | some failure =>
            exact Answered.failed other failure

/-- The lines of a file are answered one after the other. -/
theorem recording_readLine
    {channel : Channel State} (writing : channel.outlet.capturing = true)
    {lines : List SentLine} {results : List (Verdict × Command)}
    (read :
      channel.receiver.deliveries Receiver.keep
        (lines.flatMap SentLine.read) = results)
    (stays : ∀ record, (.accepted, record) ∈ results →
      record.mCode? ≠ some 29) :
    (lines.foldl (readLine operations) channel).outlet.capturing = true ∧
      (lines.foldl (readLine operations) channel).receiver =
        channel.receiver.pushAll Receiver.keep
          (lines.flatMap SentLine.read) ∧
      ∃ answers,
        Recording lines results answers ∧
          (lines.foldl (readLine operations) channel).outlet.calls =
            channel.outlet.calls ++ answers := by
  induction lines generalizing channel results with
  | nil =>
      subst read
      exact ⟨writing, rfl, [], Recording.nil, (List.append_nil _).symm⟩
  | cons line rest ih =>
      have first := Receiver.deliveries_line Receiver.keep channel.receiver
        line.plain line.ends
      rw [List.flatMap_cons, Receiver.deliveries_append, SentLine.read, first,
        List.singleton_append] at read
      subst read
      obtain ⟨still, receiver, calls, answered, made⟩ :=
        answered_readLine operations writing line first
          fun accepted =>
            stays _ (by rw [accepted]; exact List.mem_cons_self)
      obtain ⟨last, after, answers, recording, calls'⟩ :=
        ih still (by rw [receiver]; rfl) fun record member =>
          stays record (List.mem_cons_of_mem _ member)
      refine
        ⟨last, ?_, calls ++ answers, Recording.cons answered recording, ?_⟩
      · rw [List.foldl_cons, after, receiver, List.flatMap_cons,
          Receiver.pushAll_append]
      · rw [List.foldl_cons, calls', made, List.append_assoc]

/-- What the lines of a stream are delivered as, cut at its first and its last line. -/
theorem deliveries_sent
    (receiver : Receiver) {opening closing : SentLine} {lines : List SentLine}
    {first last : Verdict × Command} {results : List (Verdict × Command)}
    (read :
      receiver.deliveries Receiver.keep
          ((opening :: (lines ++ [closing])).flatMap SentLine.read) =
        first :: (results ++ [last])) :
    receiver.deliveries Receiver.keep opening.read = [first] ∧
      (receiver.pushAll Receiver.keep opening.read).deliveries Receiver.keep
        (lines.flatMap SentLine.read) = results ∧
      ((receiver.pushAll Receiver.keep opening.read).pushAll Receiver.keep
        (lines.flatMap SentLine.read)).deliveries Receiver.keep
          closing.read = [last] := by
  have single (receiver : Receiver) (line : SentLine) :
      ∃ result, receiver.deliveries Receiver.keep line.read = [result] :=
    ⟨_, Receiver.deliveries_line Receiver.keep receiver line.plain line.ends⟩
  obtain ⟨opened, opens⟩ := single receiver opening
  obtain ⟨closed, closes⟩ :=
    single
      ((receiver.pushAll Receiver.keep opening.read).pushAll Receiver.keep
        (lines.flatMap SentLine.read)) closing
  rw [List.flatMap_cons, List.flatMap_append, List.flatMap_singleton,
    Receiver.deliveries_append, Receiver.deliveries_append, opens, closes,
    List.singleton_append, List.cons.injEq] at read
  obtain ⟨rfl, later⟩ := read
  obtain ⟨between, same⟩ := List.append_inj' later rfl
  exact ⟨opens, between, closes.trans same⟩

/--
A stream that opens a file, sends lines and closes it is answered as such, and
the file is closed afterwards.  What is written are the lines between the two,
each as it was sent and those alone that are accepted and are no commands on
files.
-/
theorem run_captures
    {channel : Channel State} (executing : channel.outlet.capturing = false)
    {signals : List Signal} (unended : Signal.ended ∉ signals)
    {opening closing : SentLine} {lines : List SentLine}
    (sent :
      signals.filterMap Signal.byte? =
        (opening :: (lines ++ [closing])).flatMap SentLine.sent)
    {opened closed : Command} {results : List (Verdict × Command)}
    (read :
      channel.receiver.deliveries Receiver.keep
          ((opening :: (lines ++ [closing])).flatMap SentLine.read) =
        (.accepted, opened) :: (results ++ [(.accepted, closed)]))
    (opens : opened.mCode? = some 28)
    (converted : opened.malformed = false)
    (named : opened.filename.isComplete = true)
    (created :
      (operations.create channel.outlet.machine opened.filename.bytes).2 =
        none)
    (stays : ∀ record, (.accepted, record) ∈ results →
      record.mCode? ≠ some 29)
    (closes : closed.mCode? = some 29) :
    (channel.runWithin operations none signals).finished = true ∧
      (channel.run operations signals).outlet.capturing = false ∧
      (channel.run operations signals).receiver =
        channel.receiver.pushAll Receiver.keep
          ((opening :: (lines ++ [closing])).flatMap SentLine.read) ∧
      ∃ answers failure,
        Recording lines results answers ∧
          (channel.run operations signals).outlet.calls =
            channel.outlet.calls ++
              [.create opened.filename.bytes none, .reply .ok] ++ answers ++
              [.close failure,
                .reply (.after failure .doneSavingFile .writeFailed)] := by
  obtain ⟨finished, run⟩ := run_sent operations channel unended sent
  obtain ⟨first, between, last⟩ := deliveries_sent channel.receiver read
  -- the line that opens the file
  have begins :
      Disposition.ofLine channel.outlet.capturing .accepted opened =
        .beginCapture opened.filename.bytes := by
    rw [executing, Disposition.ofLine_not_writing, Disposition.executing,
      converted, if_neg Bool.false_ne_true, if_pos opens, if_pos named]
  obtain ⟨receiver, calls, capturing⟩ :=
    channel.readLine_of_quiet operations opening first begins
      (by rintro ⟨⟩)
  rw [Disposition.writingAfter, created, Option.isNone_none, Bool.or_true]
    at capturing
  rw [Disposition.calls, created] at calls
  -- the lines of the file
  rw [← receiver] at between last
  obtain ⟨still, receiver', answers, recording, calls'⟩ :=
    recording_readLine operations capturing between stays
  -- the line that closes it
  rw [← receiver'] at last
  have ends :
      Disposition.ofLine
          (lines.foldl (readLine operations)
            (channel.readLine operations opening)).outlet.capturing
          .accepted closed = .endCapture := by
    rw [still, Disposition.ofLine_writing, Disposition.capturing, closes]
    rfl
  obtain ⟨receiver'', calls'', capturing'⟩ :=
    readLine_of_quiet operations _ closing last ends (by rintro ⟨⟩)
  have whole :
      channel.run operations signals =
        (lines.foldl (readLine operations)
          (channel.readLine operations opening)).readLine operations
            closing := by
    rw [run, List.foldl_cons, List.foldl_append]
    rfl
  rw [calls', calls] at calls''
  rw [whole]
  refine ⟨finished, capturing', ?_, answers, _, recording, calls''⟩
  rw [receiver'', receiver', receiver, List.flatMap_cons,
    List.flatMap_append, Receiver.pushAll_append, Receiver.pushAll_append,
    List.flatMap_singleton]

end Channel

/-! ## A file of one line -/

namespace SentLine

/-- The line `M28 a` opens the file `a`. -/
def opensA : SentLine where
  text := [77, 50, 56, 32, 97]
  terminator := Byte.lineFeed
  extra := []
  nonempty := nofun
  fits := by decide
  plain := by decide
  ends := rfl
  blank := nofun

/-- The line `X5`, closed by a carriage return and a line feed. -/
def move : SentLine where
  text := [88, 53]
  terminator := Byte.carriageReturn
  extra := [Byte.lineFeed]
  nonempty := nofun
  fits := by decide
  plain := by decide
  ends := rfl
  blank := List.forall_mem_singleton.mpr rfl

/-- The line `M29` closes the file. -/
def closes : SentLine where
  text := [77, 50, 57]
  terminator := Byte.lineFeed
  extra := []
  nonempty := nofun
  fits := by decide
  plain := by decide
  ends := rfl
  blank := nofun

end SentLine

namespace Channel

/-- A channel of a machine that is idle. -/
def idle : Channel Nat :=
  .new (.new .lenient .zero) 0

/-- The receiver of the idle channel after the line that opens the file. -/
def opened : Receiver :=
  idle.receiver.pushAll Receiver.keep SentLine.opensA.read

/-- The receiver after the line of the file. -/
def moved : Receiver :=
  opened.pushAll Receiver.keep SentLine.move.read

/-- The line of the file and the two around it are accepted. -/
theorem deliveries_idle :
    idle.receiver.deliveries Receiver.keep
        ((SentLine.opensA :: ([SentLine.move] ++ [SentLine.closes])).flatMap
          SentLine.read) =
      (.accepted, SentLine.opensA.record idle.receiver) ::
        ([(.accepted, SentLine.move.record opened)] ++
          [(.accepted, SentLine.closes.record moved)]) := by
  have first :=
    SentLine.opensA.deliveries_read idle.receiver (by decide)
  have second := SentLine.move.deliveries_read opened (by decide)
  have third := SentLine.closes.deliveries_read moved (by decide)
  rw [List.flatMap_cons, List.flatMap_append, List.flatMap_singleton,
    List.flatMap_singleton, Receiver.deliveries_append,
    Receiver.deliveries_append, first, ← opened, second, ← moved, third]
  rfl

/-- The file `a` holds the move between `M28 a` and `M29`. -/
theorem run_captures_move :
    let lines := SentLine.opensA :: ([.move] ++ [.closes])
    let signals := (lines.flatMap SentLine.sent).map Signal.byte
    let run := idle.run Machine.tally signals
    (idle.runWithin Machine.tally none signals).finished = true ∧
      run.outlet.capturing = false ∧
      run.receiver =
        idle.receiver.pushAll Receiver.keep (lines.flatMap SentLine.read) ∧
      ∃ answers failure,
        Recording [.move]
            [(.accepted, SentLine.move.record opened)] answers ∧
          run.outlet.calls =
            idle.outlet.calls ++
              [.create (SentLine.opensA.record idle.receiver).filename.bytes
                none, .reply .ok] ++
              answers ++
              [.close failure,
                .reply (.after failure .doneSavingFile .writeFailed)] := by
  intro lines signals run
  have unended : Signal.ended ∉ signals := by
    decide
  have sent :
      signals.filterMap Signal.byte? = lines.flatMap SentLine.sent := by
    decide
  have stays : ∀ record,
      (Verdict.accepted, record) ∈
          [(Verdict.accepted, SentLine.move.record opened)] →
        record.mCode? ≠ some 29 := by
    intro record member
    rw [List.mem_singleton, Prod.mk.injEq] at member
    rw [member.2]
    decide
  exact
    run_captures Machine.tally rfl unended sent deliveries_idle
      (by decide) (by decide) (by decide) rfl stays (by decide)

end Channel

end GcodeLink
