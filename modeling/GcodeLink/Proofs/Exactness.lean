import GcodeLink.Proofs.Literal.Spelling
import GcodeLink.Proofs.Literal.Truncation
import GcodeLink.Proofs.Reading

/-!
# Numbers from the line to the slot

A number is read digit by digit, scaled by several divisions, narrowed to its
slot and stored, and a field of the same kind may come after it.  From end to
end no more happens to it than a change of units.  If the record shows a field,
its slot stands for the decimal number that the body of the last such field
spells, times the factor of the unit over its divisor, and truncated toward zero
once.

The sign of a literal is applied to an integer without bounds.  `Negatable` names
the literals for which a signed word of 64 bits would do.
-/

namespace GcodeLink

/-- The decimal number that bytes spell. -/
def Spelling.decimal (bytes : List UInt8) : ℚ :=
  (if isSigned bytes then -(value (unsigned bytes) : ℚ) else value (unsigned bytes)) /
    10 ^ fraction (unsigned bytes)

namespace Literal

/-- A literal that did not overflow stands for the number that its bytes spell. -/
theorem exactValue_pushAll
    {bytes : List UInt8} (fits : (zero.pushAll bytes).overflowed = false) :
    (zero.pushAll bytes).exactValue = Spelling.decimal bytes := by
  have holds := holds_pushAll bytes
  have places :
      (zero.pushAll bytes).fraction =
        Spelling.fraction (Spelling.unsigned bytes) := by
    rw [Spelling.fraction_eq, ← holds.places_eq fits, fraction]
    cases (zero.pushAll bytes).places <;> rfl
  rw [exactValue, ← fraction_eq, places, signed, negative_pushAll,
    holds.mantissa_eq fits, Spelling.decimal]
  split
  · push_cast
    rfl
  · push_cast
    rfl

/-- A slot stands for the exact quotient, truncated once. -/
theorem toInt_of_fit
    {width : Type} [Slot width] {bytes : List UInt8} {ratio : Ratio} {slot : width}
    (stored : (zero.pushAll bytes).fit ratio = .ok slot) :
    Slot.toInt slot =
      towardZero (Spelling.decimal bytes * ratio.factor / ratio.divisor) := by
  obtain ⟨scalable, number⟩ := scaled_eq_ok_iff.mp (scaled_of_fit stored)
  have fits : (zero.pushAll bytes).overflowed = false := by
    rw [← Bool.not_eq_true]
    exact fun overflowed => scalable (Or.inl overflowed)
  rw [number, dropDigits_signedQuotient, exactValue_pushAll fits]

end Literal

/-! ## The last field of a kind -/

/--
Among the parts of a line there is a field of this kind, and the slot stands for
the number that the last of them spells, in the unit that the fields before it
give to the slot.
-/
def Part.Spell
    {width : Type} [Slot width] (scale : Scale) (inches : Bool) (field : Field)
    (parts : List Part) (slot : width) : Prop :=
  ∃ front opener body back,
    parts = front ++ .field opener body :: back ∧
      Field.ofByte (Byte.fold opener) = field ∧
      (∀ entry ∈ entries back, entry.field ≠ field) ∧
      let ratio := Entry.ratio scale inches (entries front) field
      Slot.toInt slot =
        towardZero (Spelling.decimal body * ratio.factor / ratio.divisor)

namespace Part

variable
  {width : Type} [Slot width] {scale : Scale} {inches : Bool} {field : Field}
  {slot : width}

/-- A part of another kind after the others changes nothing. -/
theorem Spell.append
    {parts : List Part} (spell : Spell scale inches field parts slot)
    {part : Part} (apart : ∀ entry ∈ part.entry?, entry.field ≠ field) :
    Spell scale inches field (parts ++ [part]) slot := by
  obtain ⟨front, opener, body, back, rfl, opens, others, stands⟩ := spell
  refine
    ⟨front, opener, body, back ++ [part], ?_, opens, ?_, stands⟩
  · rw [List.append_assoc, List.cons_append]
  · intro entry member
    rw [entries_append, List.mem_append] at member
    rcases member with member | member
    · exact others entry member
    · rw [entries, List.mem_filterMap] at member
      obtain ⟨last, isLast, found⟩ := member
      rw [List.mem_singleton.mp isLast] at found
      exact apart entry found

/-- If the last field of a kind could be stored, it spells the number in its slot. -/
theorem spell_of_getLast?
    {parts : List Part}
    (last :
      (Entry.conversions width scale inches field (entries parts)).getLast? =
        some (.ok slot)) :
    Spell scale inches field parts slot := by
  induction parts using List.reverseRecOn with
  | nil =>
      cases last
  | append_singleton parts part ih =>
      cases entry : part.entry? with
      | none =>
          rw [entries_append_of_none parts entry] at last
          apply (ih last).append
          rw [entry]
          rintro _ ⟨⟩
      | some found =>
          have appended : entries (parts ++ [part]) = entries parts ++ [found] := by
            rw [entries_append]
            exact congrArg (entries parts ++ ·) (List.filterMap_cons_some entry)
          rw [appended] at last
          by_cases same : found.field = field
          · cases part with
            | field opener body =>
                cases entry
                subst same
                rw [Entry.conversions_append_self, List.getLast?_concat,
                  Option.some_inj] at last
                refine ⟨parts, opener, body, [], rfl, rfl, ?_, ?_⟩
                · intro entry member
                  cases member
                · exact Literal.toInt_of_fit last
            | filename _ | comment _ | blank _ =>
                cases entry
          · rw [Entry.conversions_append_of_ne _ _ _ _ same] at last
            apply (ih last).append
            rw [entry]
            rintro _ ⟨⟩
            exact same

end Part

/-- A slot whose mark is set holds the last number of its field. -/
theorem SlotReads.getLast?_of_mark
    {width : Type} {results : List (Except Fault width)} {before after : width}
    (reads : SlotReads results before after true) :
    results.getLast? = some (.ok after) := by
  have last := reads.getLast?
  rw [if_pos rfl, Option.bind_eq_some_iff] at last
  obtain ⟨result, found, stored⟩ := last
  cases result with
  | error fault =>
      cases stored
  | ok number =>
      cases stored
      exact found

namespace Command

/-- Every slot whose field the record shows stands for a number that the parts of the line spell. -/
structure SpelledBy
    (record : Command) (scale : Scale) (inches : Bool) (parts : List Part) :
    Prop where
  axis : ∀ axis, record.seen.contains (.axis axis) = true →
    Part.Spell scale inches (.axis axis) parts (record.target.position.get axis)
  feed : record.seen.contains .feed = true →
    Part.Spell scale inches .feed parts record.target.feed
  s : record.seen.contains .s = true →
    Part.Spell scale inches .s parts record.s
  p : record.seen.contains .p = true →
    Part.Spell scale inches .p parts record.p
  lineNumber : record.seen.contains .lineNumber = true →
    Part.Spell scale inches .lineNumber parts record.lineNumber

theorem Reads.spelledBy
    {record before : Command} {scale : Scale} {parts : List Part}
    (reads : record.Reads before scale parts) :
    record.SpelledBy scale before.settings.inches parts := by
  have spell {width : Type} [Slot width] {field : Field} {old new : width}
      (slot :
        SlotReads
          (Entry.conversions width scale before.settings.inches field
            (Part.entries parts))
          old new (record.seen.contains field))
      (seen : record.seen.contains field = true) :
      Part.Spell scale before.settings.inches field parts new := by
    rw [seen] at slot
    exact Part.spell_of_getLast? slot.getLast?_of_mark
  exact
    { axis := fun axis => spell (reads.entries.axis axis)
      feed := spell reads.entries.feed
      s := spell reads.entries.s
      p := spell reads.entries.p
      lineNumber := spell reads.entries.lineNumber }

end Command

namespace Receiver

/--
A line is handed over with slots that are exact.  A coordinate, a feed rate, a
parameter or a line number that its record shows is the number that the last
field of its kind spells on the line, in the unit of its slot and truncated
toward zero once, whatever else is on the line.
-/
theorem deliveries_exact
    (listener : Verdict → Command → Command)
    {receiver : Receiver} (start : receiver.AtLineStart)
    {line : List UInt8} (plain : Byte.Unterminated line)
    {terminator : UInt8} (ends : Byte.isTerminator terminator = true) :
    ∃ verdict record,
      receiver.deliveries listener (line ++ [terminator]) = [(verdict, record)] ∧
        record.SpelledBy receiver.scale receiver.command.settings.inches
          (Part.ofBytes line) := by
  refine ⟨_, _, deliveries_line listener receiver plain ends, ?_⟩
  have reads := reads_delivered start line ends
  exact reads.spelledBy

/-- With a hundred steps in a millimetre, `X-1.259` is 125 steps backwards. -/
example :
    let scale : Scale :=
      { axes := .fill { stepsPerMeter := 100000, stepsPerInch := 2540 } }
    ((new .lenient scale).deliveries keep
        [88, 45, 49, 46, 50, 53, 57, Byte.lineFeed]).map
        (fun handed => handed.2.target.position.x) = [-125] := by
  decide

end Receiver

end GcodeLink
