import Mathlib.Data.List.DropRight
import GcodeLink.Proofs.Channel.Segments

/-!
# Giving a run up

A run waits only when its stream has nothing to deliver, and a run that waits
may be given up.  What its framer holds is lost then, be it half a line or a
line that is being discarded.  The channel has not seen any of this yet: it has
read the segments that were closed, and nothing of the one that is open.

So it is as if the bytes after the last terminator had never come.  A later run
starts with a new framer, and does what one run over the whole lines of both
streams does.
-/

namespace GcodeLink

/-- The bytes up to the last terminator among them. -/
def Byte.wholeLines (bytes : List UInt8) : List UInt8 :=
  bytes.rdropWhile fun byte => !isTerminator byte

namespace Segment

/-! ## The segments of whole lines -/

theorem closed_append (first front rest : List UInt8) :
    closed first (front ++ rest) =
      closed first front ++ closed (opened first front) rest := by
  induction front generalizing first with
  | nil =>
      rfl
  | cons byte front ih =>
      rw [List.cons_append, closed, closed, opened]
      split
      · rw [ih, List.cons_append]
      · exact ih _

theorem opened_append (first front rest : List UInt8) :
    opened first (front ++ rest) = opened (opened first front) rest := by
  induction front generalizing first with
  | nil =>
      rfl
  | cons byte front ih =>
      rw [List.cons_append, opened, opened]
      split
      · exact ih []
      · exact ih _

/-- The bytes after the last terminator close no segment. -/
theorem closed_wholeLines (bytes : List UInt8) :
    closed [] (Byte.wholeLines bytes) = closed [] bytes := by
  induction bytes using List.reverseRecOn with
  | nil =>
      rfl
  | append_singleton bytes byte ih =>
      rw [Byte.wholeLines, List.rdropWhile_concat]
      split
      · next inside =>
          rw [Bool.not_eq_true'] at inside
          rw [closed_append, closed, inside]
          exact ih.trans (List.append_nil _).symm
      · rfl

/-- Whole lines leave no segment open. -/
theorem opened_wholeLines (bytes : List UInt8) :
    opened [] (Byte.wholeLines bytes) = [] := by
  induction bytes using List.reverseRecOn with
  | nil =>
      rfl
  | append_singleton bytes byte ih =>
      rw [Byte.wholeLines, List.rdropWhile_concat]
      split
      · exact ih
      · next ends =>
          rw [Bool.not_eq_true, Bool.not_eq_false'] at ends
          rw [opened_append, opened, if_pos ends]
          rfl

end Segment

variable {State : Type}

namespace Run

/-- Only a pause counts among those that a run waits for. -/
theorem schedule_cons_of_ne
    (waits : Nat) {signal : Signal} (awake : signal ≠ .pending)
    (rest : List Signal) :
    schedule (some (waits + 1)) (signal :: rest) =
      signal :: schedule (some (waits + 1)) rest := by
  cases signal with
  | pending =>
      exact absurd rfl awake
  | byte _ | ended =>
      rfl

/-- A run that is given up when it has waited this often is given nothing more. -/
theorem schedule_abandoned (front rest : List Signal) :
    schedule (some (front.count .pending + 1)) (front ++ .pending :: rest) =
      front ++ [.pending] := by
  induction front with
  | nil =>
      rw [List.count_nil, List.nil_append, schedule, schedule]
      rfl
  | cons signal front ih =>
      rw [List.cons_append]
      by_cases pause : signal = .pending
      · subst pause
        rw [List.count_cons_self, schedule, ih]
        rfl
      · rw [List.count_cons_of_ne pause, schedule_cons_of_ne _ pause, ih]
        rfl

end Run

namespace Channel

variable (operations : Machine State)

/-! ## What a run has read -/

/--
The channel after the segments that a stream of bytes closes.  In which buffers
the bytes come is of no account.
-/
def readClosed (channel : Channel State) (bytes : List UInt8) :
    Channel State :=
  (Segment.closed [] bytes).foldl
    (readSegment operations .empty Line.ofBytes) channel

/-- The bytes after the last terminator do nothing. -/
theorem readClosed_wholeLines (channel : Channel State) (bytes : List UInt8) :
    channel.readClosed operations (Byte.wholeLines bytes) =
      channel.readClosed operations bytes := by
  rw [readClosed, Segment.closed_wholeLines, readClosed]

/-- What follows whole lines is read from where they left the channel. -/
theorem readClosed_append
    (channel : Channel State) {front : List UInt8}
    (whole : Segment.opened [] front = []) (rest : List UInt8) :
    channel.readClosed operations (front ++ rest) =
      (channel.readClosed operations front).readClosed operations rest := by
  rw [readClosed, Segment.closed_append, whole, List.foldl_append]
  rfl

/-- A segment leaves the receiver at the start of a line if it found it there. -/
theorem atLineStart_readSegment
    (early : Line) (hold : List UInt8 → Line)
    {channel : Channel State} (start : channel.receiver.AtLineStart)
    {segment : List UInt8 × UInt8}
    (ends : Byte.isTerminator segment.2 = true) :
    (channel.readSegment operations early hold
      segment).receiver.AtLineStart := by
  rw [readSegment]
  split_ifs
  · exact start
  · rw [receiver_push]
    exact Receiver.atLineStart_push _ _ ends
  · exact start

/-- So do segments in order. -/
theorem atLineStart_foldl_readSegment
    (early : Line) (hold : List UInt8 → Line)
    {channel : Channel State} (start : channel.receiver.AtLineStart)
    {segments : List (List UInt8 × UInt8)}
    (ends : ∀ segment ∈ segments, Byte.isTerminator segment.2 = true) :
    (segments.foldl (readSegment operations early hold)
      channel).receiver.AtLineStart := by
  induction segments generalizing channel with
  | nil =>
      exact start
  | cons segment rest ih =>
      rw [List.forall_mem_cons] at ends
      apply ih
      · exact atLineStart_readSegment operations early hold start ends.1
      · exact ends.2

theorem atLineStart_readClosed
    {channel : Channel State} (start : channel.receiver.AtLineStart)
    (bytes : List UInt8) :
    (channel.readClosed operations bytes).receiver.AtLineStart := by
  apply atLineStart_foldl_readSegment operations .empty Line.ofBytes start
  intro segment member
  have among : segment ∈ Segment.terminated [] bytes := by
    rw [Segment.terminated_eq]
    exact List.mem_append_left _ member
  exact (Segment.unterminated_of_mem Byte.unterminated_nil among).2

/-- A complete run reads the segments that are closed, and then the one that is open. -/
theorem runWithin_none
    (channel : Channel State)
    {signals : List Signal} (unended : Signal.ended ∉ signals) :
    (channel.runWithin operations none signals).finished = true ∧
      channel.run operations signals =
        (channel.readClosed operations
            (signals.filterMap Signal.byte?)).readSegment
          operations .empty Line.ofBytes
          (Segment.opened [] (signals.filterMap Signal.byte?),
            Byte.lineFeed) := by
  obtain ⟨finished, read⟩ := channel.runWithin_segments operations unended
  rw [readSegments, Segment.terminated_eq, List.foldl_append] at read
  exact ⟨finished, read⟩

/-- A run over whole lines reads nothing but the segments that they close. -/
theorem run_of_wholeLines
    (channel : Channel State)
    {signals : List Signal} (unended : Signal.ended ∉ signals)
    (whole : Segment.opened [] (signals.filterMap Signal.byte?) = []) :
    channel.run operations signals =
      channel.readClosed operations (signals.filterMap Signal.byte?) := by
  rw [(channel.runWithin_none operations unended).2, whole]
  rfl

/-- A run over what follows whole lines goes on from where they left the channel. -/
theorem run_append
    (channel : Channel State)
    {front rest : List Signal}
    (frontUnended : Signal.ended ∉ front) (restUnended : Signal.ended ∉ rest)
    (whole : Segment.opened [] (front.filterMap Signal.byte?) = []) :
    channel.run operations (front ++ rest) =
      (channel.run operations front).run operations rest := by
  have unended : Signal.ended ∉ front ++ rest := by
    rw [List.mem_append, not_or]
    exact ⟨frontUnended, restUnended⟩
  rw [(channel.runWithin_none operations unended).2, List.filterMap_append,
    Segment.opened_append, whole, channel.readClosed_append operations whole,
    ← channel.run_of_wholeLines operations frontUnended whole,
    ← (runWithin_none operations _ restUnended).2]

/-! ## What a run leaves that is given up -/

/-- A run that is given up has read the segments that were closed, and waits. -/
theorem runWithin_abandoned
    (channel : Channel State)
    {front : List Signal} (unended : Signal.ended ∉ front)
    (rest : List Signal) :
    (channel.runWithin operations (some (front.count .pending + 1))
        (front ++ .pending :: rest)).finished = false ∧
      (channel.runWithin operations (some (front.count .pending + 1))
        (front ++ .pending :: rest)).channel =
          channel.readClosed operations (front.filterMap Signal.byte?) := by
  have goesOn : Signal.ended ∉ front ++ [Signal.pending] := by
    rw [List.mem_append, not_or]
    exact ⟨unended, by decide⟩
  have delivered :
      (front ++ [Signal.pending]).filterMap Signal.byte? =
        front.filterMap Signal.byte? := by
    rw [List.filterMap_append]
    exact List.append_nil _
  obtain ⟨running, _, _, read⟩ :=
    Run.drive_closed operations .empty (fun _ => Line.bytes_ofBytes)
      (rfl : (Run.start channel).finished = false) Framer.carries_new
      Byte.unterminated_nil goesOn
  rw [delivered] at read
  rw [runWithin, Run.schedule_abandoned]
  exact ⟨running, read⟩

/--
The channel after a run that was given up, when these signals had been
delivered, is the one that a complete run over their whole lines would have
left.
-/
structure CutBack
    (before after : Channel State) (received : List Signal) : Prop where
  /-- It does not matter with which pauses the whole lines come. -/
  whole : ∀ whole : List Signal,
    Signal.ended ∉ whole →
      whole.filterMap Signal.byte? =
          Byte.wholeLines (received.filterMap Signal.byte?) →
        (before.runWithin operations none whole).finished = true ∧
          after = before.run operations whole ∧
          ∀ later : List Signal, Signal.ended ∉ later →
            after.run operations later =
              before.run operations (whole ++ later)
  start : before.receiver.AtLineStart → after.receiver.AtLineStart

/--
Wherever a run is given up while it waits, its channel is left between two
lines: as by a complete run over the lines that were whole by then.
-/
theorem run_abandoned
    (channel : Channel State)
    {front : List Signal} (unended : Signal.ended ∉ front)
    (rest : List Signal) :
    (channel.runWithin operations (some (front.count .pending + 1))
        (front ++ .pending :: rest)).finished = false ∧
      channel.CutBack operations
        (channel.runWithin operations (some (front.count .pending + 1))
          (front ++ .pending :: rest)).channel front := by
  obtain ⟨waits, read⟩ :=
    channel.runWithin_abandoned operations unended rest
  refine ⟨waits, ?_⟩
  rw [read]
  constructor
  case whole =>
    intro whole wholeUnended cut
    have closed : Segment.opened [] (whole.filterMap Signal.byte?) = [] := by
      rw [cut]
      exact Segment.opened_wholeLines _
    have complete :
        channel.readClosed operations (front.filterMap Signal.byte?) =
          channel.run operations whole := by
      rw [channel.run_of_wholeLines operations wholeUnended closed, cut,
        readClosed_wholeLines]
    refine
      ⟨(channel.runWithin_none operations wholeUnended).1, complete, ?_⟩
    intro later laterUnended
    rw [complete,
      channel.run_append operations wholeUnended laterUnended closed]
  case start =>
    intro start
    exact atLineStart_readClosed operations start _

/-- A run over `G1`, the line feed after it and an open `M` is given up there. -/
theorem run_abandoned_open :
    ((Channel.new (.new .lenient .zero) 0).runWithin Machine.tally (some 1)
        [.byte 71, .byte 49, .byte 10, .byte 77, .pending,
          .byte 50]).finished = false ∧
      (Channel.new (.new .lenient .zero) 0).CutBack Machine.tally
        ((Channel.new (.new .lenient .zero) 0).runWithin Machine.tally (some 1)
          [.byte 71, .byte 49, .byte 10, .byte 77, .pending,
            .byte 50]).channel
        [.byte 71, .byte 49, .byte 10, .byte 77] :=
  run_abandoned Machine.tally (.new (.new .lenient .zero) 0)
    (by decide : Signal.ended ∉ [.byte 71, .byte 49, .byte 10, .byte 77])
    [.byte 50]

end Channel

end GcodeLink
