import GcodeLink.Segment

/-!
# Framing is splitting

The framer keeps a buffer and a flag from one answer to the next.  What they
stand for can be told from the stream alone: the bytes that came since the last
signal that closed a segment.  `Framer.Carries` is that invariant.  Every signal
keeps it, and a signal that closes the segment is answered with what the whole
segment is owed, so that the answers are those of the stream cut into segments.

A reader that goes on asking after the last signal is answered as if the input
reported its end once more, or twice if a line was left open.
-/

namespace GcodeLink

namespace Framer

/--
The framer carries a segment of which these bytes were delivered: it holds as
many of them as a line has room for, and knows whether there were more.
-/
structure Carries (framer : Framer) (bytes : List UInt8) : Prop where
  overflowed : framer.overflowed = decide (longestLine < bytes.length)
  held : framer.line.bytes = bytes.take longestLine

theorem carries_new : new.Carries [] where
  overflowed := rfl
  held := rfl

/-- A line that leaves room for its terminator takes one more byte. -/
theorem bytes_push_of_le
    {line : Line} (room : line.bytes.length ≤ longestLine) (byte : UInt8) :
    (line.push byte).bytes = line.bytes ++ [byte] := by
  apply Buffer.bytes_push
  rw [← Bool.not_eq_true, Buffer.isFull_iff]
  intro full
  have most : line.bytes.length = 120 := full
  have fewer : line.bytes.length ≤ 119 := room
  omega

namespace Carries

variable {framer : Framer} {bytes : List UInt8}

/-- A segment that is not too long is held as a whole. -/
theorem held_of_le
    (carries : framer.Carries bytes) (fits : bytes.length ≤ longestLine) :
    framer.line.bytes = bytes := by
  rw [carries.held, List.take_of_length_le fits]

theorem overflowed_of_le
    (carries : framer.Carries bytes) (fits : bytes.length ≤ longestLine) :
    framer.overflowed = false := by
  rw [carries.overflowed, decide_eq_false_iff_not, Nat.not_lt]
  exact fits

theorem overflowed_of_lt
    (carries : framer.Carries bytes) (long : longestLine < bytes.length) :
    framer.overflowed = true := by
  rw [carries.overflowed, decide_eq_true_eq]
  exact long

/-- A byte inside the segment is carried along. -/
theorem take (carries : framer.Carries bytes) (byte : UInt8) :
    (framer.take byte).Carries (bytes ++ [byte]) := by
  have longer : (bytes ++ [byte]).length = bytes.length + 1 :=
    List.length_append
  rcases Nat.lt_or_ge longestLine bytes.length with long | fits
  · -- the segment is being discarded already
    have discards := carries.overflowed_of_lt long
    rw [Framer.take, if_pos discards]
    constructor
    · rw [discards, longer, eq_comm, decide_eq_true_eq]
      exact Nat.lt_succ_of_lt long
    · rw [carries.held, List.take_append_of_le_length (Nat.le_of_lt long)]
  · have keeps := carries.overflowed_of_le fits
    have held := carries.held_of_le fits
    rw [Framer.take, keeps, if_neg Bool.false_ne_true, Buffer.length, held]
    split
    · next room =>
        constructor
        · rw [longer, eq_comm, decide_eq_false_iff_not, Nat.not_lt]
          exact room
        · rw [bytes_push_of_le (by rw [held]; exact fits), held,
            List.take_of_length_le]
          rw [longer]
          exact room
    · next full =>
        -- the byte would take the room of the terminator
        have filled : bytes.length = longestLine :=
          Nat.le_antisymm fits (Nat.not_lt.mp full)
        constructor
        · rw [longer, filled, eq_comm, decide_eq_true_eq]
          exact Nat.lt_succ_self longestLine
        · rw [held, ← filled, List.take_left]

/-- A terminator is answered with what the whole segment is owed, and the next segment is empty. -/
theorem close (carries : framer.Carries bytes) (terminator : UInt8) :
    (framer.close terminator).1.Carries [] ∧
      (framer.close terminator).2.map Poll.report =
        Segment.closedBy terminator bytes := by
  rcases Nat.lt_or_ge longestLine bytes.length with long | fits
  · have some : bytes ≠ [] := by
      rintro rfl
      exact Nat.not_lt_zero _ long
    rw [Framer.close, if_pos (carries.overflowed_of_lt long), Segment.closedBy,
      List.isEmpty_eq_false_iff.mpr some, if_neg Bool.false_ne_true,
      if_neg (Nat.not_le.mpr long)]
    exact ⟨⟨rfl, Buffer.bytes_clear _⟩, rfl⟩
  · have held := carries.held_of_le fits
    rw [Framer.close, carries.overflowed_of_le fits, if_neg Bool.false_ne_true,
      Buffer.isEmpty, held, Segment.closedBy]
    cases bytes with
    | nil =>
        exact ⟨carries, rfl⟩
    | cons first rest =>
        have whole :
            (framer.line.push terminator).bytes =
              first :: rest ++ [terminator] := by
          rw [bytes_push_of_le (by rw [held]; exact fits), held]
        simp only [List.isEmpty_cons, Bool.false_eq_true, if_false, if_pos fits]
        exact ⟨carries_new, congrArg (some ∘ Report.line) whole⟩

/-- The end of the input closes a segment as a line feed does, and is reported if there is none. -/
theorem finish (carries : framer.Carries bytes) :
    framer.finish.1.Carries [] ∧
      framer.finish.2.report = Segment.closedByEnd bytes := by
  obtain ⟨empty, owed⟩ := carries.close Byte.lineFeed
  refine ⟨empty, ?_⟩
  rw [Segment.closedByEnd, ← owed, Framer.finish]
  cases (framer.close Byte.lineFeed).2 with
  | none => rfl
  | some poll => rfl

/-- With no line open, the end of the input is reported. -/
theorem finish_of_nil (carries : framer.Carries []) :
    framer.finish.2 = .ended := by
  have report := carries.finish.2
  cases poll : framer.finish.2 with
  | ended =>
      rfl
  | pending | line _ | tooLong =>
      rw [poll] at report
      cases report

/-- From any segment on, the answers report what the stream is owed. -/
theorem report_answers
    (carries : framer.Carries bytes) (signals : List Signal) :
    (framer.answers signals).map Poll.report =
      Segment.reports bytes signals := by
  induction signals generalizing framer bytes with
  | nil =>
      rfl
  | cons signal rest ih =>
      rw [answers_cons, List.map_append]
      cases signal with
      | pending =>
          exact congrArg (Report.pending :: ·) (ih carries)
      | ended =>
          obtain ⟨empty, owed⟩ := carries.finish
          rw [Segment.reports, ← owed]
          exact congrArg (framer.finish.2.report :: ·) (ih empty)
      | byte byte =>
          rw [Segment.reports, step]
          split
          · obtain ⟨empty, owed⟩ := carries.close byte
            rw [← owed, ih empty]
            cases (framer.close byte).2 with
            | none => rfl
            | some poll => rfl
          · exact ih (carries.take byte)

end Carries

/-! ## Pauses and ends -/

/-- A closed segment yields nothing, a line, or the report that it was too long. -/
theorem close_cases (framer : Framer) (terminator : UInt8) :
    (framer.close terminator).2 = none ∨
      (framer.close terminator).2 = some .tooLong ∨
        ∃ line, (framer.close terminator).2 = some (.line line) := by
  rw [close]
  split
  · exact Or.inr (Or.inl rfl)
  · split
    · exact Or.inl rfl
    · exact Or.inr (Or.inr ⟨_, rfl⟩)

/-- A terminator is not answered with the end of the input. -/
theorem close_ne_ended (framer : Framer) (terminator : UInt8) :
    (framer.close terminator).2 ≠ some .ended := by
  rcases framer.close_cases terminator with answer | answer | ⟨line, answer⟩
  all_goals
    rw [answer]
    exact nofun

/-- Only a pause is answered as one. -/
theorem step_ne_pending
    (framer : Framer) {signal : Signal} (awake : signal ≠ .pending) :
    (framer.step signal).2 ≠ some .pending := by
  cases signal with
  | pending =>
      exact absurd rfl awake
  | byte byte =>
      rw [step]
      split
      · rcases framer.close_cases byte with answer | answer | ⟨line, answer⟩
        all_goals
          rw [answer]
          exact nofun
      · exact nofun
  | ended =>
      rw [step, finish]
      rcases framer.close_cases Byte.lineFeed with
        answer | answer | ⟨line, answer⟩
      all_goals
        rw [answer]
        exact nofun

/-- Leaving out the pauses of the stream leaves out those among the answers. -/
theorem answers_filter_pending (framer : Framer) (signals : List Signal) :
    framer.answers (signals.filter (· ≠ .pending)) =
      (framer.answers signals).filter (· ≠ .pending) := by
  induction signals generalizing framer with
  | nil =>
      rfl
  | cons signal rest ih =>
      rw [answers_cons, List.filter_append, ← ih]
      by_cases pause : signal = .pending
      · subst pause
        rfl
      · have answer :
            (framer.step signal).2.toList.filter (· ≠ .pending) =
              (framer.step signal).2.toList := by
          apply List.filter_eq_self.mpr
          intro poll member
          apply decide_eq_true
          rintro rfl
          exact framer.step_ne_pending pause (Option.mem_toList.mp member)
        have kept :
            (signal :: rest).filter (· ≠ .pending) =
              signal :: rest.filter (· ≠ .pending) :=
          List.filter_cons_of_pos (decide_eq_true pause)
        rw [answer, kept, answers_cons]

/-- There are as many pauses among the answers as in the stream. -/
theorem count_pending_answers (framer : Framer) (signals : List Signal) :
    (framer.answers signals).count .pending = signals.count .pending := by
  induction signals generalizing framer with
  | nil =>
      rfl
  | cons signal rest ih =>
      rw [answers_cons, List.count_append, ih]
      by_cases pause : signal = .pending
      · subst pause
        rw [step_pending, List.count_cons_self, Nat.add_comm]
        rfl
      · have none : (framer.step signal).2.toList.count .pending = 0 := by
          apply List.count_eq_zero.mpr
          intro member
          exact framer.step_ne_pending pause (Option.mem_toList.mp member)
        rw [none, Nat.zero_add, List.count_cons_of_ne pause]

/--
The answers of a framer are what the segments of the stream are owed, in the
order of the stream.  A pause is passed on where it falls and changes nothing
else: without its pauses the stream is given the same lines and reports.
-/
theorem answers_segmentwise (signals : List Signal) :
    (new.answers signals).map Poll.report = Segment.reports [] signals ∧
      (new.answers signals).count .pending = signals.count .pending ∧
      (new.answers signals).filter (· ≠ .pending) =
        new.answers (signals.filter (· ≠ .pending)) :=
  ⟨carries_new.report_answers signals, new.count_pending_answers signals,
    (new.answers_filter_pending signals).symm⟩

/-! ## Reading to the end -/

end Framer

/-- The stream ends with the input, and the last that is owed for it is the report of the end. -/
def Segment.Exhausts (signals : List Signal) : Prop :=
  signals.getLast? = some .ended ∧
    (reports [] signals).getLast? = some .ended

namespace Framer

/-- The end of the input leaves no line open. -/
theorem closed_finish (framer : Framer) :
    framer.finish.1.overflowed = false ∧
      framer.finish.1.line.isEmpty = true := by
  rw [finish, close]
  cases discards : framer.overflowed with
  | true =>
      exact ⟨rfl, Buffer.isEmpty_clear _⟩
  | false =>
      cases empty : framer.line.isEmpty with
      | true =>
          exact ⟨discards, empty⟩
      | false =>
          exact ⟨rfl, rfl⟩

/-- The end of the input that closes a line is reported the next time. -/
theorem finish_finish (framer : Framer) :
    framer.finish.1.finish.2 = .ended := by
  obtain ⟨keeps, empty⟩ := framer.closed_finish
  rw [finish, close, keeps, empty]
  rfl

theorem answers_concat_ended (framer : Framer) (signals : List Signal) :
    framer.answers (signals ++ [.ended]) =
      framer.answers signals ++ [(framer.after signals).finish.2] := by
  rw [answers_append]
  rfl

theorem after_concat_ended (framer : Framer) (signals : List Signal) :
    framer.after (signals ++ [.ended]) = (framer.after signals).finish.1 := by
  rw [after, List.foldl_append]
  rfl

/-- The answers that close a stream are those to one end of the input, or to two. -/
theorem answers_append_closing (framer : Framer) (signals : List Signal) :
    framer.answers signals ++ (framer.after signals).closing =
      if (framer.after signals).finish.2 = .ended then
        framer.answers (signals ++ [.ended])
      else
        framer.answers (signals ++ [.ended] ++ [.ended]) := by
  rw [answers_concat_ended, answers_concat_ended, after_concat_ended,
    answers_concat_ended, List.append_assoc, closing]
  cases finished : (framer.after signals).finish with
  | mk closed poll =>
      cases poll with
      | ended =>
          rfl
      | pending | line _ | tooLong =>
          rfl

/-- Whether the end was reported can be told from the answers. -/
theorem exhausts_iff (signals : List Signal) :
    Segment.Exhausts signals ↔
      signals.getLast? = some .ended ∧
        (new.answers signals).getLast? = some .ended := by
  have reported (poll : Poll) : poll.report = .ended ↔ poll = .ended := by
    cases poll <;> simp [Poll.report]
  rw [Segment.Exhausts, ← carries_new.report_answers, List.getLast?_map,
    Option.map_eq_some_iff]
  simp only [reported, exists_eq_right]

theorem exhausts_concat_ended (signals : List Signal) :
    Segment.Exhausts (signals ++ [.ended]) ↔
      (new.after signals).finish.2 = .ended := by
  rw [exhausts_iff, answers_concat_ended, List.getLast?_concat,
    List.getLast?_concat]
  constructor
  · rintro ⟨_, last⟩
    exact Option.some.inj last
  · intro ended
    exact ⟨rfl, congrArg some ended⟩

/--
A reader that asks until the end is reported is given what the segments of the
stream are owed, for the stream with as many ends of the input after it as this
takes, and no more.  Two are enough: one to close a line that was left open, and
one to report the end.
-/
theorem polls_segmentwise (signals : List Signal) :
    ∃ count ≤ 2,
      (new.polls signals).map Poll.report =
          Segment.reports [] (signals ++ List.replicate count .ended) ∧
        Segment.Exhausts (signals ++ List.replicate count .ended) ∧
        ∀ fewer < count,
          ¬ Segment.Exhausts (signals ++ List.replicate fewer .ended) := by
  by_cases exhausted : Segment.Exhausts signals
  · refine ⟨0, Nat.zero_le 2, ?_, ?_, fun _ below => absurd below (Nat.not_lt_zero _)⟩
    · rw [polls, if_pos ((exhausts_iff signals).mp exhausted),
        carries_new.report_answers, List.replicate_zero, List.append_nil]
    · rw [List.replicate_zero, List.append_nil]
      exact exhausted
  have given :
      new.polls signals =
        new.answers signals ++ (new.after signals).closing := by
    rw [polls, if_neg ((not_congr (exhausts_iff signals)).mp exhausted)]
  rw [given, answers_append_closing]
  by_cases ended : (new.after signals).finish.2 = .ended
  · refine ⟨1, by decide, ?_, (exhausts_concat_ended signals).mpr ended, ?_⟩
    · rw [if_pos ended]
      exact carries_new.report_answers _
    · intro fewer below
      rw [Nat.lt_one_iff.mp below, List.replicate_zero, List.append_nil]
      exact exhausted
  · have twice :
        signals ++ List.replicate 2 Signal.ended =
          signals ++ [.ended] ++ [.ended] :=
      (List.append_assoc signals [.ended] [.ended]).symm
    refine ⟨2, Nat.le_refl 2, ?_, ?_, ?_⟩
    · rw [if_neg ended, twice]
      exact carries_new.report_answers _
    · rw [twice, exhausts_concat_ended, after_concat_ended]
      exact finish_finish _
    · intro fewer below
      obtain rfl | rfl : fewer = 0 ∨ fewer = 1 := by omega
      · rw [List.replicate_zero, List.append_nil]
        exact exhausted
      · exact (not_congr (exhausts_concat_ended signals)).mpr ended

end Framer

end GcodeLink
