import GcodeLink.Proofs.Channel.Lines

/-!
# A buffer is read as one line

A whole line is read up to its first terminator, and whatever its buffer holds
behind that is not looked at.  If there is no terminator, one is appended; if
there is no room for it, the line is refused and nothing is read.

While the bytes of a line are read, the line that goes to a file may be rewritten
in the very buffer that they come from.  The bytes are therefore looked up one
by one here, each in the buffer as the byte before it left it.  No place is
looked up that the buffer does not hold, because the buffer is not touched
before the terminator, and the terminator is the last byte that is looked up.
-/

namespace GcodeLink.Channel

variable {State : Type} (operations : Machine State)

/-! ## Reading from the buffer, place by place -/

/--
Read the bytes at these places of a line, each from the buffer that the byte
before it left; `none` if the buffer holds no byte at one of the places.
-/
def pushPlaces : Channel State → Line → List Nat → Option (Channel State × Line)
  | channel, line, [] => some (channel, line)
  | channel, line, place :: rest =>
      line.bytes[place]?.bind fun byte =>
        pushPlaces (channel.push operations line byte).1
          (channel.push operations line byte).2 rest

/-- Read a whole line from its buffer, place by place up to the first terminator. -/
def pushLineByPlace (channel : Channel State) (line : Line) :
    Option (Channel State × Line) :=
  if line.isEmpty then
    some (channel, line)
  else
    match line.close? with
    | some closed =>
        channel.pushPlaces operations closed (List.range closed.length)
    | none => some (channel.refuse .lineTooLong, line)

/-- From any place on, the bytes of a line are where they were before the first of them was read. -/
theorem pushPlaces_range'
    (channel : Channel State) {line : Line} {front text : List UInt8}
    {terminator : UInt8}
    (held : line.bytes = front ++ (text ++ [terminator]))
    (plain : Byte.Unterminated text) :
    channel.pushPlaces operations line
        (List.range' front.length (text.length + 1)) =
      some (channel.pushAll operations line (text ++ [terminator])) := by
  induction text generalizing channel front with
  | nil =>
      have place : line.bytes[front.length]? = some terminator := by
        rw [held]
        exact List.getElem?_append_right (Nat.le_refl _) |>.trans (by simp)
      rw [List.length_nil, List.range'_succ, pushPlaces, place]
      rfl
  | cons byte text ih =>
      obtain ⟨inside, later⟩ := Byte.unterminated_cons.mp plain
      have place : line.bytes[front.length]? = some byte := by
        rw [held]
        exact List.getElem?_append_right (Nat.le_refl _) |>.trans (by simp)
      have rest : line.bytes = (front ++ [byte]) ++ (text ++ [terminator]) := by
        rw [held, List.append_assoc]
        rfl
      have next := ih (channel.push operations line byte).1 rest later
      rw [List.length_append, List.length_singleton] at next
      rw [List.length_cons, List.range'_succ, pushPlaces, place,
        Option.bind_some, List.cons_append, pushAll_cons]
      rw [push_of_not_terminator operations channel line inside] at next ⊢
      exact next

/-- No place is looked up that the buffer does not hold, and every byte is the one of its line. -/
theorem pushLineByPlace_eq (channel : Channel State) (line : Line) :
    channel.pushLineByPlace operations line =
      some (channel.pushLine operations line) := by
  rw [pushLineByPlace, pushLine]
  split
  · rfl
  · cases closes : line.close? with
    | none =>
        rfl
    | some closed =>
        obtain ⟨text, terminator, held, plain, _⟩ :=
          Line.exists_of_close? closes
        have whole : closed.bytes = [] ++ (text ++ [terminator]) := held
        have read := channel.pushPlaces_range' operations whole plain
        rw [List.length_nil, ← List.range_eq_range'] at read
        simp only [Buffer.length, held, List.length_append,
          List.length_singleton]
        exact read

/-! ## One line -/

/--
The channel and the buffer after one line was read, and nothing else: these
bytes were pushed, and the line was disposed of in this way.
-/
structure ReadsLine
    (channel : Channel State) (text : List UInt8) (terminator : UInt8)
    (disposition : Disposition) (after : Channel State × Line) : Prop where
  /-- The bytes are pushed in order, from a buffer that holds no others. -/
  pushed : ∃ held : Line,
    held.bytes = text ++ [terminator] ∧
      after = channel.pushAll operations held (text ++ [terminator])
  /-- Whatever other buffer held these bytes, the channel would be the same. -/
  alone : ∀ other : Line, other.bytes = text ++ [terminator] →
    after.1 = (channel.pushAll operations other (text ++ [terminator])).1
  /-- One line ends, whoever listens. -/
  ended : ∃ verdict record,
    (∀ listener,
      channel.receiver.deliveries listener (text ++ [terminator]) =
        [(verdict, record)]) ∧
      Disposition.ofLine channel.outlet.capturing verdict record = disposition
  start : after.1.receiver.AtLineStart
  /-- The buffer holds the bytes that were read, the last one rewritten if the line was stored. -/
  buffer :
    after.2.bytes =
      text ++ [if disposition = .store then Byte.lineFeed else terminator]

/-- The bytes of a line that come from a buffer that holds no others are read as one line. -/
theorem readsLine_pushAll
    (channel : Channel State) {line : Line}
    {text : List UInt8} {terminator : UInt8}
    (plain : Byte.Unterminated text)
    (ends : Byte.isTerminator terminator = true)
    (held : line.bytes = text ++ [terminator]) :
    ∃ disposition,
      channel.ReadsLine operations text terminator disposition
        (channel.pushAll operations line (text ++ [terminator])) := by
  have read := channel.pushAll_line operations line plain ends
  refine
    ⟨Disposition.ofLine channel.outlet.capturing
        (channel.receiver.complete text terminator).verdict
        (channel.receiver.complete text terminator).delivered,
      ⟨line, held, rfl⟩, ?alone, ?ended, ?start, ?buffer⟩
  case alone =>
    intro other otherHeld
    have same :
        (channel.pushAll operations line (text ++ [terminator])).1 =
          ((channel.pushAll operations other text).1.push operations other
            terminator).1 :=
      channel.pushAll_line_of_held operations plain ends held otherHeld
    rw [same, pushAll_append, pushAll_of_unterminated operations channel other
      plain]
    rfl
  case ended =>
    refine ⟨_, _, ?_, rfl⟩
    intro listener
    exact Receiver.deliveries_line listener channel.receiver plain ends
  case start =>
    rw [read]
    exact Receiver.atLineStart_nextLine _ _
  case buffer =>
    rw [read]
    change (channel.outlet.route operations _ _ line).line.bytes = _
    rw [Outlet.line_route]
    split
    · exact Line.bytes_endWithLineFeed held ends
    · exact held

/--
A buffer is read as one line or not at all.  With a terminator, it is read up to
its first one, and what it holds behind that has no part in anything.  Without
one, it is read as if a line feed came last, or refused if there is no room for
it.  An empty buffer is passed over.  In no case is a byte looked up that is not
there.
-/
theorem pushLine_whole (channel : Channel State) (line : Line) :
    channel.pushLineByPlace operations line =
        some (channel.pushLine operations line) ∧
      (∀ text terminator rest,
        line.bytes = text ++ terminator :: rest →
        Byte.Unterminated text →
        Byte.isTerminator terminator = true →
          ∃ disposition,
            channel.ReadsLine operations text terminator disposition
              (channel.pushLine operations line)) ∧
      (Byte.Unterminated line.bytes →
        line.isEmpty = false →
        line.length < lineCapacity →
          ∃ longer disposition,
            line.push? Byte.lineFeed = some longer ∧
              longer.bytes = line.bytes ++ [Byte.lineFeed] ∧
              channel.pushLine operations line =
                channel.pushLine operations longer ∧
              channel.ReadsLine operations line.bytes Byte.lineFeed disposition
                (channel.pushLine operations line)) ∧
      (Byte.Unterminated line.bytes →
        line.length = lineCapacity →
          channel.pushLine operations line =
            ({ channel with outlet := channel.outlet.send .lineTooLong },
              line)) ∧
      (line.isEmpty = true →
        channel.pushLine operations line = (channel, line)) := by
  refine ⟨channel.pushLineByPlace_eq operations line, ?cut, ?short, ?full, ?empty⟩
  case cut =>
    intro text terminator rest held plain ends
    have filled : line.isEmpty = false := by
      rw [Buffer.isEmpty, held]
      exact List.isEmpty_eq_false_iff.mpr (by simp)
    have closed := Line.bytes_truncate_of_held held
    rw [channel.pushLine_of_close? operations filled
      (Line.close?_of_held held plain ends), closed]
    exact channel.readsLine_pushAll operations plain ends closed
  case short =>
    intro plain filled short
    have room : line.isFull = false := by
      rw [← Bool.not_eq_true, Buffer.isFull_iff]
      exact Nat.ne_of_lt short
    obtain ⟨longer, pushed⟩ : ∃ longer, line.push? Byte.lineFeed = some longer := by
      rw [← Option.isSome_iff_exists, ← Option.ne_none_iff_isSome, ne_eq,
        Buffer.push?_eq_none_iff, room]
      exact Bool.false_ne_true
    have held := Buffer.bytes_of_push? pushed
    have closes : line.close? = some longer := by
      rw [Line.close?_of_unterminated plain, pushed]
    have read :
        channel.pushLine operations line =
          channel.pushAll operations longer
            (line.bytes ++ [Byte.lineFeed]) := by
      rw [channel.pushLine_of_close? operations filled closes, held]
    obtain ⟨disposition, reads⟩ :=
      channel.readsLine_pushAll operations plain rfl held
    refine ⟨longer, disposition, pushed, held, ?_, ?_⟩
    · rw [read, channel.pushLine_of_terminated operations plain rfl held]
    · rw [read]
      exact reads
  case full =>
    intro plain full
    have closes : line.close? = none := by
      rw [Line.close?_of_unterminated plain, Buffer.push?_eq_none_iff,
        Buffer.isFull_iff]
      exact full
    have filled : line.isEmpty = false := by
      rw [Buffer.isEmpty, List.isEmpty_eq_false_iff]
      rintro nothing
      rw [Buffer.length, nothing] at full
      cases full
    rw [pushLine, filled, closes]
    rfl
  case empty =>
    intro empty
    rw [pushLine, if_pos empty]

/-- Of a buffer with `G1`, a carriage return and an `M`, the line `G1` is read. -/
theorem pushLine_whole_cut :
    ∃ disposition,
      (Channel.new (.new .lenient .zero) 0).ReadsLine Machine.tally [71, 49]
        Byte.carriageReturn disposition
        ((Channel.new (.new .lenient .zero) 0).pushLine Machine.tally
          (Line.ofBytes [71, 49, 13, 77])) :=
  (pushLine_whole Machine.tally _ (Line.ofBytes [71, 49, 13, 77])).2.1 [71, 49]
    Byte.carriageReturn [77] rfl (by decide) rfl

end GcodeLink.Channel
