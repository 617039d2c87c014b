import GcodeLink.Proofs.Command.Slots
import GcodeLink.Proofs.Filename
import GcodeLink.Proofs.Part.Entries
import GcodeLink.Proofs.Part.Stepping
import GcodeLink.Proofs.Receiver.Lines

/-!
# What the receiver reads is what the line says

The receiver commits every field one byte late, at whatever byte closes it,
and it has to keep apart comments, filenames and fields as it goes.  This
module shows that nothing is lost or read twice on the way: the record that a
line leaves is the one that its list of fields describes.  The invariant
`Command.Reads` relates a record to the parts read so far; one more part keeps
it, and the cut of the whole line provides the parts.
-/

namespace GcodeLink

namespace Command

/-- The record says what the fields of its line say, given the record before the line. -/
structure ReadsEntries
    (record before : Command) (scale : Scale) (entries : List Entry) : Prop where
  /-- A coordinate is the last that fits, and counts as seen if the last one did. -/
  axis : ∀ axis,
    SlotReads
      (Entry.conversions Int32 scale before.settings.inches (.axis axis) entries)
      (before.target.position.get axis) (record.target.position.get axis)
      (record.seen.contains (.axis axis))
  feed :
    SlotReads
      (Entry.conversions UInt32 scale before.settings.inches .feed entries)
      before.target.feed record.target.feed (record.seen.contains .feed)
  s :
    SlotReads
      (Entry.conversions Int16 scale before.settings.inches .s entries)
      before.s record.s (record.seen.contains .s)
  p :
    SlotReads
      (Entry.conversions UInt16 scale before.settings.inches .p entries)
      before.p record.p (record.seen.contains .p)
  lineNumber :
    SlotReads
      (Entry.conversions UInt32 scale before.settings.inches .lineNumber entries)
      before.lineNumber record.lineNumber (record.seen.contains .lineNumber)
  /-- The last `G` or `M` decides what the line is. -/
  gCode : record.gCode? = Entry.gCode? entries
  mCode : record.mCode? = Entry.mCode? entries
  /-- The last asterisk decides on the checksum. -/
  received :
    record.received =
      (Entry.conversions UInt8 scale before.settings.inches .checksum
        entries).getLast?.bind Except.toOption
  malformed :
    record.malformed = Entry.anyMalformed scale before.settings.inches entries
  /-- A line changes no settings by itself. -/
  settings : record.settings = before.settings
  origin : record.target.origin = before.target.origin

/-- The record says what the parts of its line say, given the record before the line. -/
structure Reads
    (record before : Command) (scale : Scale) (parts : List Part) : Prop where
  entries : record.ReadsEntries before scale (Part.entries parts)
  checksum : record.seen.checksum = parts.any Part.isMark
  /-- The name is the last one, as far as it fits. -/
  filename : record.filename.bytes = (Part.lastName parts).take lineCapacity
  truncated :
    record.filename.truncated =
      decide (lineCapacity < (Part.lastName parts).length)

namespace ReadsEntries

variable
  {record before : Command} {scale : Scale} {entries : List Entry}

/-- The mark of the sum, the name, the sum and the awaited number stand apart. -/
theorem frame
    (reads : record.ReadsEntries before scale entries)
    (filename : Filename) (sum : UInt8) (expected : UInt32) :
    Command.ReadsEntries { record with filename, sum, expected } before scale
      entries :=
  ⟨reads.axis, reads.feed, reads.s, reads.p, reads.lineNumber, reads.gCode,
    reads.mCode, reads.received, reads.malformed, reads.settings, reads.origin⟩

/-- A fresh record says nothing. -/
theorem nil (fresh : before.IsFresh) :
    before.ReadsEntries before scale [] := by
  obtain ⟨seen, g, m, _, received, malformed, _, _⟩ := fresh
  have blank {width : Type} (slot : width) {field : Field}
      (unseen : startingFields.contains field = false) :
      SlotReads [] slot slot (before.seen.contains field) := by
    rw [seen, unseen]
    exact SlotReads.nil slot
  have noAxis (axis : Axis) : startingFields.contains (.axis axis) = false := by
    cases axis <;> rfl
  exact
    { axis axis := blank _ (noAxis axis)
      feed := blank _ rfl
      s := blank _ rfl
      p := blank _ rfl
      lineNumber := blank _ rfl
      gCode := by
        rw [gCode?, seen, g]
        rfl
      mCode := by
        rw [mCode?, seen]
        rfl
      received
      malformed
      settings := rfl
      origin := rfl }

/-! ## One more field -/

/-- The ratio that the record uses for a field is the one that the fields before it give. -/
theorem ratio_start
    (reads : record.ReadsEntries before scale entries) (field : Field) :
    (record.start field).ratio scale field =
      Entry.ratio scale before.settings.inches entries field := by
  have settings : (record.start field).settings = before.settings := by
    rw [← reads.settings]
    cases field <;> rfl
  cases field with
  | axis axis =>
      rw [ratio, settings, Entry.ratio]
  | feed =>
      rw [ratio, settings, Entry.ratio]
  | p =>
      have code : (record.start .p).gCode? = record.gCode? := rfl
      rw [ratio, code, reads.gCode, Entry.ratio]
  | g | m | s | lineNumber | checksum | unknown _ =>
      rfl

/-- Any slot goes on reading the line with one more field. -/
theorem slot_append
    (reads : record.ReadsEntries before scale entries)
    {field : Field} {width : Type} [Slot width] {slot : Command → width}
    (stores : Stores field slot) {old : width}
    (reading :
      SlotReads
        (Entry.conversions width scale before.settings.inches field entries)
        old (slot record) (record.seen.contains field))
    (other : Field) (value : Literal) :
    SlotReads
      (Entry.conversions width scale before.settings.inches field
        (entries ++ [⟨other, value⟩]))
      old (slot ((record.start other).settle scale other value))
      (((record.start other).settle scale other value).seen.contains field) := by
  by_cases same : other = field
  · subst same
    rw [Entry.conversions_append_self, ← reads.ratio_start]
    exact stores.reads_settle reading scale value
  · obtain ⟨slot, mark⟩ := stores.settle_of_ne record scale value same
    rw [Entry.conversions_append_of_ne _ _ _ _ same, slot, mark]
    exact reading

/-- The last `G` or `M` decides, and a code that does not fit leaves the line none. -/
theorem codes_append
    (reads : record.ReadsEntries before scale entries)
    (field : Field) (value : Literal) :
    ((record.start field).settle scale field value).gCode? =
        Entry.gCode? (entries ++ [⟨field, value⟩]) ∧
      ((record.start field).settle scale field value).mCode? =
        Entry.mCode? (entries ++ [⟨field, value⟩]) := by
  rw [Entry.gCode?, Entry.mCode?, Entry.lastCode?_append]
  by_cases isG : field = .g
  · subst isG
    exact codes_settle_g record scale value
  · by_cases isM : field = .m
    · subst isM
      exact codes_settle_m record scale value
    · have noCode : Entry.isCode ⟨field, value⟩ = false := by
        simp [Entry.isCode, isG, isM]
      obtain ⟨gCode, mCode⟩ := codes_settle_of_ne record scale value isG isM
      rw [noCode, gCode, mCode]
      exact ⟨reads.gCode, reads.mCode⟩

/-- The last asterisk decides, and a checksum that does not fit counts as none. -/
theorem received_append
    (reads : record.ReadsEntries before scale entries)
    (field : Field) (value : Literal) :
    ((record.start field).settle scale field value).received =
      (Entry.conversions UInt8 scale before.settings.inches .checksum
        (entries ++ [⟨field, value⟩])).getLast?.bind Except.toOption := by
  by_cases isMark : field = .checksum
  · subst isMark
    rw [Entry.conversions_append_self, List.getLast?_concat]
    rfl
  · rw [Entry.conversions_append_of_ne _ _ _ _ isMark,
      received_settle_of_ne record scale value isMark]
    exact reads.received

/-- One more field is read as the fields before it were. -/
theorem append
    (reads : record.ReadsEntries before scale entries)
    (field : Field) (value : Literal) :
    ((record.start field).settle scale field value).ReadsEntries before scale
      (entries ++ [⟨field, value⟩]) where
  axis axis := reads.slot_append (stores_axis axis) (reads.axis axis) field value
  feed := reads.slot_append stores_feed reads.feed field value
  s := reads.slot_append stores_s reads.s field value
  p := reads.slot_append stores_p reads.p field value
  lineNumber := reads.slot_append stores_lineNumber reads.lineNumber field value
  gCode := (reads.codes_append field value).1
  mCode := (reads.codes_append field value).2
  received := reads.received_append field value
  malformed := by
    rw [malformed_settle, reads.ratio_start, reads.malformed,
      Entry.anyMalformed_append]
  settings := by
    rw [blind_settings.settle, blind_settings.start, reads.settings]
  origin := by
    rw [blind_origin.settle, blind_origin.start, reads.origin]

end ReadsEntries

/-! ## One more part -/

namespace Reads

variable
  {record before : Command} {scale : Scale} {parts : List Part}

/-- The sum and the awaited number stand apart. -/
theorem frame
    (reads : record.Reads before scale parts)
    (sum : UInt8) (expected : UInt32) :
    Command.Reads { record with sum, expected } before scale parts :=
  ⟨reads.entries.frame record.filename sum expected, reads.checksum,
    reads.filename, reads.truncated⟩

/-- A fresh record says nothing. -/
theorem nil (fresh : before.IsFresh) :
    before.Reads before scale [] := by
  obtain ⟨seen, _, _, _, _, _, bytes, truncated⟩ := id fresh
  exact
    { entries := .nil fresh
      checksum := by
        rw [seen]
        rfl
      filename := bytes
      truncated }

/-- A comment or a byte between the parts says nothing. -/
theorem skip
    (reads : record.Reads before scale parts) {part : Part}
    (noField : part.entry? = none) (noName : part.name? = none)
    (noMark : part.isMark = false) :
    record.Reads before scale (parts ++ [part]) := by
  have entries : Part.entries (parts ++ [part]) = Part.entries parts :=
    Part.entries_append_of_none parts noField
  have name : Part.lastName (parts ++ [part]) = Part.lastName parts :=
    Part.lastName_append_of_none parts noName
  have marks : (parts ++ [part]).any Part.isMark = parts.any Part.isMark := by
    rw [List.any_append, List.any_cons, noMark, List.any_nil, Bool.or_false,
      Bool.or_false]
  constructor
  · rw [entries]
    exact reads.entries
  · rw [marks]
    exact reads.checksum
  · rw [name]
    exact reads.filename
  · rw [name]
    exact reads.truncated

/-- A filename takes the place of the one before it. -/
theorem appendName
    (reads : record.Reads before scale parts) (name : List UInt8) :
    (record.take scale (.filename name)).Reads before scale
      (parts ++ [.filename name]) where
  entries := by
    rw [Part.entries_append_of_none parts rfl]
    exact reads.entries.frame _ record.sum record.expected
  checksum := by
    rw [List.any_append]
    simp only [List.any_cons, List.any_nil, Part.isMark, Bool.or_false]
    exact reads.checksum
  filename := by
    rw [Part.lastName_append_filename]
    exact Filename.bytes_pushAll record.filename.clear name
  truncated := by
    rw [Part.lastName_append_filename, take, Filename.truncated_pushAll,
      Filename.truncated_clear, Filename.bytes_clear, Bool.false_or,
      List.length_nil, Nat.zero_add]

/-- A field is read as the fields before it were. -/
theorem appendField
    (reads : record.Reads before scale parts)
    (opener : UInt8) (body : List UInt8) :
    (record.take scale (.field opener body)).Reads before scale
      (parts ++ [.field opener body]) := by
  have name :
      Part.lastName (parts ++ [.field opener body]) = Part.lastName parts :=
    Part.lastName_append_of_none parts rfl
  constructor
  · rw [Part.entries_append, take_field]
    exact reads.entries.append _ _
  · have opened :
        decide (Field.ofByte (Byte.fold opener) = .checksum) =
          (opener == Byte.asterisk) := by
      rw [Bool.eq_iff_iff, decide_eq_true_eq, Receiver.ofByte_eq_checksum_iff,
        Byte.fold_eq_asterisk_iff, beq_iff_eq]
    rw [take_field, Receiver.checksum_settle, Receiver.checksum_start,
      reads.checksum, opened, List.any_append, List.any_cons, List.any_nil,
      Bool.or_false]
    rfl
  · rw [name, take_field, blind_filename.settle, blind_filename.start]
    exact reads.filename
  · rw [name, take_field, blind_filename.settle, blind_filename.start]
    exact reads.truncated

theorem append
    (reads : record.Reads before scale parts) (part : Part) :
    (record.take scale part).Reads before scale (parts ++ [part]) := by
  cases part with
  | field opener body =>
      exact reads.appendField opener body
  | filename name =>
      exact reads.appendName name
  | comment _ | blank _ =>
      exact reads.skip rfl rfl rfl

end Reads

/-- A record that was fresh before the parts of a line says what they say after them. -/
theorem reads_takeAll
    {before : Command} (fresh : before.IsFresh)
    (scale : Scale) (parts : List Part) :
    (before.takeAll scale parts).Reads before scale parts := by
  induction parts using List.reverseRecOn with
  | nil =>
      exact Reads.nil fresh
  | append_singleton parts part ih =>
      rw [takeAll, List.foldl_append]
      exact ih.append part

end Command

/-! ## Whole lines -/

namespace Receiver

/-- The record of a line that was read as a whole says what the line says. -/
theorem reads_complete
    {receiver : Receiver} (start : receiver.AtLineStart)
    (line : List UInt8) {terminator : UInt8}
    (ends : Byte.isTerminator terminator = true) :
    (receiver.complete line terminator).command.Reads receiver.command
      receiver.scale (Part.ofBytes line) := by
  have read := Command.reads_takeAll start.2 receiver.scale (Part.ofBytes line)
  rw [← command_stepAll_line start.1 ends] at read
  rw [complete, absorbAll_eq]
  exact read.frame _ _

/-- The record of a line as it is handed over says what the line says. -/
theorem reads_delivered
    {receiver : Receiver} (start : receiver.AtLineStart)
    (line : List UInt8) {terminator : UInt8}
    (ends : Byte.isTerminator terminator = true) :
    (receiver.complete line terminator).delivered.Reads receiver.command
      receiver.scale (Part.ofBytes line) := by
  have awaited (command : Command) (expected : UInt32) :
      Command.Reads { command with expected } receiver.command receiver.scale
          (Part.ofBytes line) =
        command.Reads receiver.command receiver.scale (Part.ofBytes line) :=
    propext
      ⟨fun reads => reads.frame command.sum command.expected,
        fun reads => reads.frame command.sum expected⟩
  rw [project_delivered
    (Command.Reads · receiver.command receiver.scale (Part.ofBytes line))
    awaited]
  exact reads_complete start line ends

/-- The awaited number changes with the verdict only. -/
theorem expected_complete
    {receiver : Receiver} (start : receiver.AtLineStart)
    (line : List UInt8) {terminator : UInt8}
    (ends : Byte.isTerminator terminator = true) :
    (receiver.complete line terminator).command.expected =
      receiver.command.expected := by
  have stepped :
      (receiver.stepAll (line ++ [terminator])).command.expected =
        receiver.command.expected := by
    rw [command_stepAll_line start.1 ends, Command.expected_takeAll]
  rw [complete, absorbAll_eq]
  exact stepped

/--
A line is handed over once, with the record that reading it as a whole gives:
whatever the receiver did byte by byte, each slot holds the last number that
its field gave, and the last `G` or `M` decides what the line is.
-/
theorem deliveries_reads
    (listener : Verdict → Command → Command)
    {receiver : Receiver} (start : receiver.AtLineStart)
    {line : List UInt8} (plain : Byte.Unterminated line)
    {terminator : UInt8} (ends : Byte.isTerminator terminator = true) :
    ∃ verdict record,
      receiver.deliveries listener (line ++ [terminator]) = [(verdict, record)] ∧
        record.Reads receiver.command receiver.scale (Part.ofBytes line) := by
  refine ⟨_, _, deliveries_line listener receiver plain ends, ?_⟩
  exact reads_delivered start line ends

/-- A line that opens the file `a.g`. -/
theorem deliveries_reads_filename :
    ∃ verdict record,
      (Receiver.new .lenient .zero).deliveries keep
          ([77, 50, 51, 32, 97, 46, 103] ++ [Byte.lineFeed]) =
          [(verdict, record)] ∧
        record.Reads .initial .zero
          (Part.ofBytes [77, 50, 51, 32, 97, 46, 103]) :=
  deliveries_reads keep (atLineStart_new .lenient .zero) (by decide) rfl

end Receiver

end GcodeLink
