import GcodeLink.Proofs.Reading
import GcodeLink.Proofs.Receiver.Tandem

/-!
# What a rejected line leaves behind

Fields are stored as they arrive, long before the verdict on their line.  The
settings and the numbering survive a rejected line unchanged, but the target
does so only if the coordinates and the feed rate of the line are those from
before it, or are forgotten because they are displacements.  What is left in
the target shows in every later line that does not overwrite it: two receivers
that agree on phase, settings and target go on to agree, and otherwise an empty
line tells them apart.
-/

namespace GcodeLink

/-! ## The target of a field -/

/--
The target with the number that a field gives it, if the field is part of it and
the number fits.
-/
def Target.accept
    (target : Target) (scale : Scale) (inches : Bool) (field : Field)
    (value : Literal) : Target :=
  match field with
  | .axis axis =>
      match (value.fit (scale.ratio axis inches) : Except Fault Int32) with
      | .ok steps => target.setAxis axis steps
      | .error _ => target
  | .feed =>
      match (value.fit (feedRatio inches) : Except Fault UInt32) with
      | .ok feed => { target with feed }
      | .error _ => target
  | _ => target

namespace Command

theorem target_start (command : Command) (field : Field) :
    (command.start field).target = command.target := by
  cases field <;> rfl

/-- What a field does to the target depends on nothing but the settings and the target. -/
theorem target_settle
    (command : Command) (scale : Scale) (field : Field) (value : Literal) :
    (command.settle scale field value).target =
      command.target.accept scale command.settings.inches field value := by
  cases field with
  | axis axis =>
      have stores :
          command.store scale (.axis axis) value =
            (value.fit (scale.ratio axis command.settings.inches)).map
              fun steps =>
                { command with target := command.target.setAxis axis steps } :=
        rfl
      rw [settle, stores, Target.accept]
      cases (value.fit (scale.ratio axis command.settings.inches) :
        Except Fault Int32) with
      | ok steps => rfl
      | error fault => rfl
  | feed =>
      have stores :
          command.store scale .feed value =
            (value.fit (feedRatio command.settings.inches)).map fun feed =>
              { command with target := { command.target with feed } } :=
        rfl
      rw [settle, stores, Target.accept]
      cases (value.fit (feedRatio command.settings.inches) :
        Except Fault UInt32) with
      | ok feed => rfl
      | error fault => rfl
  | g | m | s | p | lineNumber =>
      exact project_settle (·.target) rfl (fun _ => rfl) rfl
  | checksum | unknown _ =>
      rfl

/-- Records with the same settings and target take in the same. -/
theorem keptInTandem_target :
    KeptInTandem fun _ left right =>
      left.settings = right.settings ∧ left.target = right.target where
  start field same := by
    rw [blind_settings.start, blind_settings.start, target_start, target_start]
    exact same
  settle scale value same := by
    rw [blind_settings.settle, blind_settings.settle, target_settle,
      target_settle, same.1, same.2]
    exact ⟨rfl, rfl⟩
  clearName same := same
  pushName _ same := same

end Command

/-! ## Agreement -/

namespace Receiver

/-- Receivers that read the same into the same target, whatever else they hold. -/
structure Agree (left right : Receiver) : Prop where
  phase : left.phase = right.phase
  scale : left.scale = right.scale
  settings : left.command.settings = right.command.settings
  target : left.command.target = right.command.target

namespace Agree

variable {left right : Receiver}

/-- Agreement is a relation between the records of receivers in the same phase. -/
theorem iff_tandem :
    left.Agree right ↔
      left.Tandem
        (fun _ first second =>
          first.settings = second.settings ∧ first.target = second.target)
        right := by
  constructor
  · intro agree
    exact ⟨agree.scale, agree.phase, agree.settings, agree.target⟩
  · intro tandem
    exact
      ⟨tandem.phase, tandem.scale, tandem.command.1, tandem.command.2⟩

/-- One byte keeps receivers in agreement. -/
theorem absorb
    (agree : left.Agree right) (raw : UInt8) :
    (left.absorb raw).Agree (right.absorb raw) := by
  have stepped : (left.step raw).Agree (right.step raw) :=
    iff_tandem.mpr
      ((iff_tandem.mp agree).step Command.keptInTandem_target raw)
  rw [absorb_eq, absorb_eq]
  exact ⟨stepped.phase, stepped.scale, stepped.settings, stepped.target⟩

theorem delivered
    (agree : left.Agree right) :
    left.delivered.settings = right.delivered.settings ∧
      left.delivered.target = right.delivered.target := by
  constructor
  · rw [settings_delivered, settings_delivered]
    exact agree.settings
  · rw [target_delivered, target_delivered]
    exact agree.target

/-- The end of a line keeps receivers in agreement as well. -/
theorem push
    (agree : left.Agree right) (raw : UInt8) :
    (left.push keep raw).Agree (right.push keep raw) := by
  have absorbed := agree.absorb raw
  rw [Receiver.push, Receiver.push]
  split
  · obtain ⟨settings, target⟩ := absorbed.delivered
    refine ⟨rfl, absorbed.scale, settings, ?_⟩
    simp only [keep, command_nextLine, Command.nextLine, settings, target]
  · exact absorbed

/-- Receivers that agree deliver the same targets. -/
theorem deliveries
    (agree : left.Agree right) (bytes : List UInt8) :
    (left.deliveries keep bytes).map (·.2.target) =
      (right.deliveries keep bytes).map (·.2.target) := by
  induction bytes generalizing left right with
  | nil =>
      rfl
  | cons byte rest ih =>
      rw [Receiver.deliveries, Receiver.deliveries, List.map_append,
        List.map_append, ih (agree.push byte)]
      congr 1
      split
      · exact congrArg ([·]) (agree.absorb byte).delivered.2
      · rfl

end Agree

/-- An empty line delivers the target as it is. -/
theorem deliveries_empty
    {receiver : Receiver} (idle : receiver.phase = .idle) :
    (receiver.deliveries keep [Byte.lineFeed]).map (·.2.target) =
      [receiver.command.target] := by
  have ends : Byte.isTerminator Byte.lineFeed = true := rfl
  have still :
      (receiver.complete [] Byte.lineFeed).command.target =
        receiver.command.target := by
    rw [complete, absorbAll_eq, List.nil_append, stepAll_cons, stepAll_nil,
      step_idle idle, Byte.fold_of_isTerminator ends,
      readIdle_of_isTerminator receiver ends]
    rfl
  have line :=
    deliveries_line keep receiver Byte.unterminated_nil ends
  rw [List.nil_append] at line
  rw [line, List.map_cons, List.map_nil, target_delivered, still]

/--
Later targets are as if a line had never been there exactly if it left the
target as it found it.
-/
theorem later_targets_iff
    {before after : Receiver}
    (beforeIdle : before.phase = .idle) (afterIdle : after.phase = .idle)
    (scale : after.scale = before.scale)
    (settings : after.command.settings = before.command.settings) :
    (∀ later,
      (after.deliveries keep later).map (·.2.target) =
        (before.deliveries keep later).map (·.2.target)) ↔
      after.command.target = before.command.target := by
  constructor
  · intro same
    have empty := same [Byte.lineFeed]
    rw [deliveries_empty afterIdle, deliveries_empty beforeIdle,
      List.cons.injEq] at empty
    exact empty.1
  · intro target
    have agree : after.Agree before :=
      ⟨afterIdle.trans beforeIdle.symm, scale, settings, target⟩
    exact agree.deliveries

end Receiver

/-! ## After a rejected line -/

/-- The last number that was converted, if any, is the one from before. -/
def Keeps
    {width : Type} (results : List (Except Fault width)) (before : width) :
    Prop :=
  ∀ number,
    (results.filterMap Except.toOption).getLast? = some number →
      number = before

/-- The last number that was converted, or else the one from before. -/
def lastNumber
    {width : Type} (results : List (Except Fault width)) (before : width) :
    width :=
  (results.filterMap Except.toOption).getLast?.getD before

theorem lastNumber_eq_iff
    {width : Type} (results : List (Except Fault width)) (before : width) :
    lastNumber results before = before ↔ Keeps results before := by
  rw [lastNumber, Keeps]
  cases (results.filterMap Except.toOption).getLast? with
  | none => simp
  | some number => simp

theorem lastNumber_append
    {width : Type} (front back : List (Except Fault width)) (before : width) :
    lastNumber (front ++ back) before =
      lastNumber back (lastNumber front before) := by
  rw [lastNumber, lastNumber, lastNumber, List.filterMap_append,
    List.getLast?_append]
  cases (back.filterMap Except.toOption).getLast? with
  | none => rfl
  | some number => rfl

/--
The fields leave the target as it was before their line: a coordinate that is
kept gets no other number, one that is a displacement was zero, and the feed
rate gets no other number.
-/
structure Command.KeepsTarget
    (before : Command) (scale : Scale) (entries : List Entry) : Prop where
  absolute : before.settings.relative = false → ∀ axis,
    Keeps
      (Entry.conversions Int32 scale before.settings.inches (.axis axis) entries)
      (before.target.position.get axis)
  relative : before.settings.relative = true → ∀ axis,
    before.target.position.get axis = 0
  feed :
    Keeps
      (Entry.conversions UInt32 scale before.settings.inches .feed entries)
      before.target.feed

theorem Target.eq_iff {target other : Target} :
    target = other ↔
      (∀ axis, target.position.get axis = other.position.get axis) ∧
        target.feed = other.feed ∧ target.origin = other.origin := by
  constructor
  · rintro rfl
    exact ⟨fun _ => rfl, rfl, rfl⟩
  · rintro ⟨position, feed, origin⟩
    exact Target.ext (PerAxis.eq_of_get_eq position) feed origin

/--
What the fields of lines leave of the target that was there before them: the
feed rate and a coordinate that is kept are the last that were converted, and
a displacement is forgotten.
-/
structure Command.LeavesTarget
    (after before : Command) (scale : Scale) (entries : List Entry) : Prop where
  settings : after.settings = before.settings
  absolute : before.settings.relative = false → ∀ axis,
    after.target.position.get axis =
      lastNumber
        (Entry.conversions Int32 scale before.settings.inches (.axis axis) entries)
        (before.target.position.get axis)
  relative : before.settings.relative = true → ∀ axis,
    after.target.position.get axis = 0
  feed :
    after.target.feed =
      lastNumber
        (Entry.conversions UInt32 scale before.settings.inches .feed entries)
        before.target.feed
  origin : after.target.origin = before.target.origin

/-- The target is as it was before exactly if the fields keep it. -/
theorem Command.LeavesTarget.target_eq_iff
    {after before : Command} {scale : Scale} {entries : List Entry}
    (leaves : after.LeavesTarget before scale entries) :
    after.target = before.target ↔ before.KeepsTarget scale entries := by
  rw [Target.eq_iff]
  constructor
  · rintro ⟨position, feed, _⟩
    refine ⟨?_, ?_, ?_⟩
    · intro absolute axis
      rw [← lastNumber_eq_iff, ← leaves.absolute absolute axis]
      exact position axis
    · intro relative axis
      exact (position axis).symm.trans (leaves.relative relative axis)
    · rw [← lastNumber_eq_iff, ← leaves.feed]
      exact feed
  · intro keeps
    refine ⟨?_, ?_, leaves.origin⟩
    · intro axis
      cases mode : before.settings.relative with
      | false =>
          rw [leaves.absolute mode axis, lastNumber_eq_iff]
          exact keeps.absolute mode axis
      | true =>
          rw [leaves.relative mode axis, keeps.relative mode axis]
    · rw [leaves.feed, lastNumber_eq_iff]
      exact keeps.feed

/-- The next line finds what the fields of the line before left. -/
theorem Command.ReadsEntries.leaves_nextLine
    {record before : Command} {scale : Scale} {entries : List Entry}
    (reads : record.ReadsEntries before scale entries) :
    record.nextLine.LeavesTarget before scale entries := by
  have same := reads.settings
  constructor
  case settings =>
    exact same
  case absolute =>
    intro absolute axis
    rw [nextLine, same, absolute, if_neg Bool.false_ne_true]
    exact (reads.axis axis).slot
  case relative =>
    intro relative axis
    rw [nextLine, same, relative, if_pos rfl]
    exact PerAxis.get_fill 0 axis
  case feed =>
    rw [nextLine]
    split
    · exact reads.feed.slot
    · exact reads.feed.slot
  case origin =>
    rw [nextLine]
    split
    · exact reads.origin
    · exact reads.origin

/-- The next line finds the target as the line before did exactly if the fields between keep it. -/
theorem Command.ReadsEntries.target_nextLine_iff
    {record before : Command} {scale : Scale} {entries : List Entry}
    (reads : record.ReadsEntries before scale entries) :
    record.nextLine.target = before.target ↔
      before.KeepsTarget scale entries :=
  reads.leaves_nextLine.target_eq_iff

namespace Receiver

/--
A rejected line leaves the settings and the awaited number alone.  It leaves the
target alone, and with it all later lines, exactly if its fields keep it.
-/
theorem pushAll_rejected
    {receiver : Receiver} (start : receiver.AtLineStart)
    {line : List UInt8} (plain : Byte.Unterminated line)
    {terminator : UInt8} (ends : Byte.isTerminator terminator = true)
    {fault : Fault} {record : Command}
    (rejected :
      receiver.deliveries keep (line ++ [terminator]) =
        [(.rejected fault, record)]) :
    (receiver.pushAll keep (line ++ [terminator])).command.settings =
        receiver.command.settings ∧
      (receiver.pushAll keep (line ++ [terminator])).command.expected =
        receiver.command.expected ∧
      ((receiver.pushAll keep (line ++ [terminator])).command.target =
          receiver.command.target ↔
        receiver.command.KeepsTarget receiver.scale
          (Part.entries (Part.ofBytes line))) ∧
      ((∀ later,
          ((receiver.pushAll keep (line ++ [terminator])).deliveries keep
            later).map (·.2.target) =
            (receiver.deliveries keep later).map (·.2.target)) ↔
        receiver.command.KeepsTarget receiver.scale
          (Part.entries (Part.ofBytes line))) := by
  have reads := reads_complete start line ends
  rw [deliveries_line keep receiver plain ends, List.cons.injEq,
    Prod.mk.injEq] at rejected
  have left : (receiver.complete line terminator).delivered =
      (receiver.complete line terminator).command :=
    delivered_of_rejected rejected.1.1
  rw [pushAll_line keep receiver plain ends, keep, left]
  have settings :
      (receiver.complete line terminator).command.nextLine.settings =
        receiver.command.settings :=
    reads.entries.settings
  refine
    ⟨settings, expected_complete start line ends,
      reads.entries.target_nextLine_iff, ?_⟩
  rw [later_targets_iff start.1 (phase_nextLine _ _)
    (scale_complete receiver line terminator) settings]
  exact reads.entries.target_nextLine_iff

/-- A receiver of a machine with a hundred steps to the millimetre on each axis. -/
def hundredSteps : Receiver :=
  .new .lenient ⟨.fill ⟨100000, 2540⟩⟩

/-- The line `X5*0` is rejected for its checksum. -/
theorem deliveries_hundredSteps :
    hundredSteps.deliveries keep ([88, 53, 42, 48] ++ [Byte.lineFeed]) =
      [(.rejected (.badChecksum 109),
        (hundredSteps.complete [88, 53, 42, 48] Byte.lineFeed).command)] := by
  decide

/-- Whether `X5*0` leaves a trace turns on the coordinate from before it. -/
theorem pushAll_rejected_move :
    (hundredSteps.pushAll keep
        ([88, 53, 42, 48] ++ [Byte.lineFeed])).command.settings =
        hundredSteps.command.settings ∧
      (hundredSteps.pushAll keep
          ([88, 53, 42, 48] ++ [Byte.lineFeed])).command.expected =
        hundredSteps.command.expected ∧
      ((hundredSteps.pushAll keep
            ([88, 53, 42, 48] ++ [Byte.lineFeed])).command.target =
          hundredSteps.command.target ↔
        hundredSteps.command.KeepsTarget hundredSteps.scale
          (Part.entries (Part.ofBytes [88, 53, 42, 48]))) ∧
      ((∀ later,
          ((hundredSteps.pushAll keep
            ([88, 53, 42, 48] ++ [Byte.lineFeed])).deliveries keep
              later).map (·.2.target) =
            (hundredSteps.deliveries keep later).map (·.2.target)) ↔
        hundredSteps.command.KeepsTarget hundredSteps.scale
          (Part.entries (Part.ofBytes [88, 53, 42, 48]))) :=
  pushAll_rejected (atLineStart_new .lenient _) (by decide) rfl
    deliveries_hundredSteps

/-- A rejected line may leave a trace: the coordinate of `X5*0` stays. -/
theorem not_always_traceless :
    ¬ ∀ (receiver : Receiver) (line : List UInt8) (terminator : UInt8)
        (fault : Fault) (record : Command),
        receiver.AtLineStart →
        Byte.Unterminated line →
        Byte.isTerminator terminator = true →
        receiver.deliveries keep (line ++ [terminator]) =
          [(.rejected fault, record)] →
        (receiver.pushAll keep (line ++ [terminator])).command.target =
          receiver.command.target := by
  intro traceless
  have same :=
    traceless hundredSteps [88, 53, 42, 48] Byte.lineFeed _ _
      (atLineStart_new .lenient _) (by decide) rfl deliveries_hundredSteps
  exact absurd same (by decide)

end Receiver

end GcodeLink
