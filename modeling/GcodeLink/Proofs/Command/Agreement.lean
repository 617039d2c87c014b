import GcodeLink.Proofs.Rejection

/-!
# Records that say the same

Two lines mean the same to whoever is handed their records if these agree on the
code, the target, the parameters, the line number and the fields that were seen.
The pause stands apart, as it is the one field whose unit depends on what came
before it on its line.

A record is a row of slots, so that agreement comes down to the slots one by
one.  The mark of the checksum is left out: whether a line carries a checksum is
no part of what it says.
-/

namespace GcodeLink

namespace Command

/-- The records hold the same in the slot of a field, and agree on whether it was seen. -/
def SameSlot
    {width : Type} (field : Field) (slot : Command → width)
    (left right : Command) : Prop :=
  slot left = slot right ∧
    left.seen.contains field = right.seen.contains field

/-- The records have the same filename. -/
def SameName (left right : Command) : Prop :=
  left.filename.bytes = right.filename.bytes ∧
    left.filename.truncated = right.filename.truncated

/-- The records say the same, except that their pauses may differ. -/
structure SaysSameButPause (left right : Command) : Prop where
  gCode : left.gCode? = right.gCode?
  mCode : left.mCode? = right.mCode?
  target : left.target = right.target
  s : left.s = right.s
  lineNumber : left.lineNumber = right.lineNumber
  seen : ∀ field, field ≠ .p → field ≠ .checksum →
    left.seen.contains field = right.seen.contains field

/-- The records say the same. -/
structure SaysSame (left right : Command) : Prop
    extends SaysSameButPause left right where
  pause : SameSlot .p (·.p) left right

theorem isSome_gCode? (command : Command) :
    command.gCode?.isSome = command.seen.contains .g := by
  rw [gCode?, FieldSet.contains]
  cases command.seen.g <;> rfl

theorem isSome_mCode? (command : Command) :
    command.mCode?.isSome = command.seen.contains .m := by
  rw [mCode?, FieldSet.contains]
  cases command.seen.m <;> rfl

/-- Records say the same if they have the same code and their slots agree one by one. -/
theorem saysSameButPause_iff
    {left right : Command}
    (origin : left.target.origin = right.target.origin) :
    left.SaysSameButPause right ↔
      (left.gCode? = right.gCode? ∧ left.mCode? = right.mCode?) ∧
        (∀ axis,
          SameSlot (.axis axis) (·.target.position.get axis) left right) ∧
        SameSlot .feed (·.target.feed) left right ∧
        SameSlot .s (·.s) left right ∧
        SameSlot .lineNumber (·.lineNumber) left right := by
  constructor
  · intro same
    obtain ⟨position, feed, _⟩ := Target.eq_iff.mp same.target
    exact
      ⟨⟨same.gCode, same.mCode⟩,
        fun axis => ⟨position axis, same.seen _ nofun nofun⟩,
        ⟨feed, same.seen _ nofun nofun⟩,
        ⟨same.s, same.seen _ nofun nofun⟩,
        ⟨same.lineNumber, same.seen _ nofun nofun⟩⟩
  · rintro ⟨⟨gCode, mCode⟩, axes, feed, s, lineNumber⟩
    refine ⟨gCode, mCode, ?_, s.1, lineNumber.1, ?_⟩
    · exact Target.eq_iff.mpr ⟨fun axis => (axes axis).1, feed.1, origin⟩
    · intro field noPause noMark
      cases field with
      | g =>
          rw [← isSome_gCode?, gCode, isSome_gCode?]
      | m =>
          rw [← isSome_mCode?, mCode, isSome_mCode?]
      | axis axis =>
          exact (axes axis).2
      | feed =>
          exact feed.2
      | s =>
          exact s.2
      | p =>
          exact absurd rfl noPause
      | lineNumber =>
          exact lineNumber.2
      | checksum =>
          exact absurd rfl noMark
      | unknown _ =>
          rfl

end Command

end GcodeLink
