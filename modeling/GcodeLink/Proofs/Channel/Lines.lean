import GcodeLink.Channel.Basic
import GcodeLink.Proofs.Receiver.Lines

/-!
# Lines on their way through a channel

A channel reads the bytes of a line as its receiver does, and routes the line
once, at its terminator.  Until then the buffer that comes with the bytes does
not matter; at the terminator only the bytes in it do, for a line that goes to a
file is stored from there.
-/

namespace GcodeLink

/-! ## The line in its buffer -/

namespace Line

variable {line : Line} {text : List UInt8} {terminator : UInt8}

/-- A line that ends with a terminator is stored with a line feed in its place. -/
theorem bytes_endWithLineFeed
    (held : line.bytes = text ++ [terminator])
    (ends : Byte.isTerminator terminator = true) :
    line.endWithLineFeed.bytes = text ++ [Byte.lineFeed] := by
  have last : line.bytes.getLast? = some terminator := by
    rw [held]
    exact List.getLast?_concat
  rw [endWithLineFeed, last]
  rcases Byte.isTerminator_iff.mp ends with rfl | rfl
  · have nonempty : line.bytes.isEmpty = false := by
      rw [held]
      exact List.isEmpty_eq_false_iff.mpr (List.concat_ne_nil _ text)
    have replaced :
        (line.setLast Byte.lineFeed).bytes =
          line.bytes.dropLast ++ [Byte.lineFeed] :=
      if_neg (Bool.eq_false_iff.mp nonempty)
    rw [held, List.dropLast_concat] at replaced
    exact replaced
  · exact held

/-- A new line that holds these bytes, or none of them if they do not fit. -/
def ofBytes (bytes : List UInt8) : Line :=
  (Buffer.ofBytes? bytes).getD .empty

theorem bytes_ofBytes
    {bytes : List UInt8} (fits : bytes.length ≤ lineCapacity) :
    (ofBytes bytes).bytes = bytes := by
  rw [ofBytes, Buffer.ofBytes?, dif_pos fits]
  rfl

/-- A line is closed after its first terminator. -/
theorem close?_of_held
    {rest : List UInt8}
    (held : line.bytes = text ++ terminator :: rest)
    (plain : Byte.Unterminated text)
    (ends : Byte.isTerminator terminator = true) :
    line.close? = some (line.truncate (text.length + 1)) := by
  have place :
      (text ++ terminator :: rest).findIdx? Byte.isTerminator =
        some text.length := by
    have none : text.findIdx? Byte.isTerminator = none :=
      List.findIdx?_eq_none_iff.mpr plain
    rw [List.findIdx?_append, none, List.findIdx?_cons, if_pos ends]
    exact congrArg some (Nat.zero_add text.length)
  rw [close?, terminatedLength?, held, place]
  rfl

/-- A line whose only terminator is its last byte is closed already. -/
theorem close?_of_terminated
    (held : line.bytes = text ++ [terminator])
    (plain : Byte.Unterminated text)
    (ends : Byte.isTerminator terminator = true) :
    line.close? = some line := by
  have whole : line.truncate (text.length + 1) = line := by
    apply line.truncate_of_length_le
    rw [held, List.length_append]
    exact Nat.le_refl _
  rw [close?_of_held held plain ends, whole]

/-- A line that is cut after its first terminator holds nothing behind it. -/
theorem bytes_truncate_of_held
    {rest : List UInt8} (held : line.bytes = text ++ terminator :: rest) :
    (line.truncate (text.length + 1)).bytes = text ++ [terminator] := by
  rw [Buffer.bytes_truncate, held, List.take_length_add_append]
  rfl

/-- A line without a terminator is closed with a line feed, if there is room for one. -/
theorem close?_of_unterminated (plain : Byte.Unterminated line.bytes) :
    line.close? = line.push? Byte.lineFeed := by
  have none : line.bytes.findIdx? Byte.isTerminator = none :=
    List.findIdx?_eq_none_iff.mpr plain
  rw [close?, terminatedLength?, none]
  rfl

/-- A closed line holds one terminator, and holds it last. -/
theorem exists_of_close? {closed : Line} (closes : line.close? = some closed) :
    ∃ text terminator,
      closed.bytes = text ++ [terminator] ∧
        Byte.Unterminated text ∧ Byte.isTerminator terminator = true := by
  rcases Byte.unterminated_or_exists line.bytes with
    plain | ⟨text, terminator, rest, held, plain, ends⟩
  · rw [close?_of_unterminated plain] at closes
    exact ⟨line.bytes, Byte.lineFeed, Buffer.bytes_of_push? closes, plain, rfl⟩
  · rw [close?_of_held held plain ends] at closes
    cases closes
    exact ⟨text, terminator, bytes_truncate_of_held held, plain, ends⟩

end Line

variable {State : Type}

/-- While a file is being written no line is executed. -/
theorem Disposition.capturing_ne_execute (command : Command) :
    capturing command ≠ .execute := by
  rw [capturing]
  cases command.mCode? with
  | none =>
      exact nofun
  | some code =>
      dsimp only
      split_ifs
      · exact nofun
      · exact nofun
      · exact nofun

namespace Outlet

/-- Routing looks at nothing of the line but the bytes that would be stored. -/
theorem route_of_bytes
    (operations : Machine State) (outlet : Outlet State)
    (verdict : Verdict) (command : Command) {line other : Line}
    (same : line.endWithLineFeed.bytes = other.endWithLineFeed.bytes) :
    (outlet.route operations verdict command line).outlet =
        (outlet.route operations verdict command other).outlet ∧
      (outlet.route operations verdict command line).command =
        (outlet.route operations verdict command other).command := by
  rw [route, route]
  cases Disposition.ofLine outlet.capturing verdict command with
  | store =>
      exact ⟨congrArg (outlet.store operations) same, rfl⟩
  | refuse _ | refuseMalformed | refuseName | beginCapture _ | execute
  | endCapture | acknowledge =>
      exact ⟨rfl, rfl⟩

/-- Only an executed command gets hold of the record. -/
theorem command_route
    (operations : Machine State) (outlet : Outlet State)
    {verdict : Verdict} {command : Command}
    (idle :
      Disposition.ofLine outlet.capturing verdict command ≠ .execute)
    (line : Line) :
    (outlet.route operations verdict command line).command = command := by
  rw [route]
  cases destination : Disposition.ofLine outlet.capturing verdict command with
  | execute =>
      exact absurd destination idle
  | refuse _ | refuseMalformed | refuseName | beginCapture _ | endCapture
  | acknowledge | store =>
      rfl

/-- Only a line that is stored is rewritten in its buffer. -/
theorem line_route
    (operations : Machine State) (outlet : Outlet State)
    (verdict : Verdict) (command : Command) (line : Line) :
    (outlet.route operations verdict command line).line =
      if Disposition.ofLine outlet.capturing verdict command = .store then
        line.endWithLineFeed
      else line := by
  rw [route]
  cases Disposition.ofLine outlet.capturing verdict command with
  | refuse _ | refuseMalformed | refuseName | beginCapture _ | execute
  | endCapture | acknowledge | store =>
      rfl

end Outlet

namespace Channel

variable (operations : Machine State)

/-! ## Reading a line -/

/-- Inside a line the outlet and the buffer stand still. -/
theorem pushAll_of_unterminated
    (channel : Channel State) (line : Line) {bytes : List UInt8}
    (plain : Byte.Unterminated bytes) :
    channel.pushAll operations line bytes =
      ({ channel with receiver := channel.receiver.absorbAll bytes }, line) := by
  induction bytes generalizing channel with
  | nil =>
      rfl
  | cons byte rest ih =>
      rcases Byte.unterminated_cons.mp plain with ⟨inside, later⟩
      rw [pushAll_cons, push_of_not_terminator operations channel line inside,
        ih _ later]
      rfl

/-- A line is routed once, when it is complete. -/
theorem pushAll_line
    (channel : Channel State) (line : Line)
    {text : List UInt8} {terminator : UInt8}
    (plain : Byte.Unterminated text)
    (ends : Byte.isTerminator terminator = true) :
    channel.pushAll operations line (text ++ [terminator]) =
      (let complete := channel.receiver.complete text terminator
       let routed :=
        channel.outlet.route operations complete.verdict complete.delivered line
       ({ receiver := complete.nextLine routed.command
          outlet := routed.outlet },
        routed.line)) := by
  have absorbed :
      (channel.receiver.absorbAll text).absorb terminator =
        channel.receiver.complete text terminator := by
    rw [Receiver.complete, Receiver.absorbAll_append]
    rfl
  rw [pushAll_append, pushAll_of_unterminated operations channel line plain,
    pushAll_cons, pushAll_nil, push, if_pos ends, absorbed]

/-- A whole line is read as it is closed, from the buffer in which it is closed. -/
theorem pushLine_of_close?
    (channel : Channel State) {given line : Line}
    (filled : given.isEmpty = false) (closes : given.close? = some line) :
    channel.pushLine operations given =
      channel.pushAll operations line line.bytes := by
  rw [pushLine, filled, closes]
  rfl

/-- A line that comes with its terminator is read from its own buffer. -/
theorem pushLine_of_terminated
    (channel : Channel State) {line : Line}
    {text : List UInt8} {terminator : UInt8}
    (plain : Byte.Unterminated text)
    (ends : Byte.isTerminator terminator = true)
    (held : line.bytes = text ++ [terminator]) :
    channel.pushLine operations line =
      channel.pushAll operations line (text ++ [terminator]) := by
  have filled : line.isEmpty = false := by
    rw [Buffer.isEmpty, held]
    exact List.isEmpty_eq_false_iff.mpr (List.concat_ne_nil terminator text)
  rw [channel.pushLine_of_close? operations filled
    (Line.close?_of_terminated held plain ends), held]

/-- Whatever the buffer held before, only its bytes at the terminator matter. -/
theorem pushAll_line_of_held
    (channel : Channel State) {line other early : Line}
    {text : List UInt8} {terminator : UInt8}
    (plain : Byte.Unterminated text)
    (ends : Byte.isTerminator terminator = true)
    (held : line.bytes = text ++ [terminator])
    (otherHeld : other.bytes = text ++ [terminator]) :
    (channel.pushAll operations line (text ++ [terminator])).1 =
      ((channel.pushAll operations early text).1.push operations other
        terminator).1 := by
  have same : line.endWithLineFeed.bytes = other.endWithLineFeed.bytes := by
    rw [Line.bytes_endWithLineFeed held ends,
      Line.bytes_endWithLineFeed otherHeld ends]
  have late :
      (channel.pushAll operations early text).1 =
        (channel.pushAll operations other text).1 := by
    rw [pushAll_of_unterminated operations channel early plain,
      pushAll_of_unterminated operations channel other plain]
  have whole :
      ((channel.pushAll operations other text).1.push operations other
          terminator).1 =
        (channel.pushAll operations other (text ++ [terminator])).1 := by
    rw [pushAll_append, pushAll_of_unterminated operations channel other plain]
    rfl
  rw [late, whole, pushAll_line operations channel line plain ends,
    pushAll_line operations channel other plain ends]
  obtain ⟨outlet, command⟩ :=
    channel.outlet.route_of_bytes operations
      (channel.receiver.complete text terminator).verdict
      (channel.receiver.complete text terminator).delivered same
  exact
    congrArg₂ Channel.mk
      (congrArg (channel.receiver.complete text terminator).nextLine command)
      outlet

end Channel

/-! ## A small machine -/

/-- A machine that counts the commands it executes, and whose files take all that is written. -/
def Machine.tally : Machine Nat where
  process count command :=
    { state := count + 1, command, acknowledge := true }
  create count _ := (count, none)
  write count _ := (count, none)
  close count := (count, none)

end GcodeLink
