import GcodeLink.Proofs.Command.Agreement
import GcodeLink.Proofs.Part.Words

/-!
# Fields that the checksum does not cover

The sum of a line stops at its first asterisk outside comments, but reading does
not: the fields that follow take effect as those before it did.  A line with a
checksum therefore need not say what its covered bytes say.  It does so exactly
if the fields after the mark keep what was read up to it, which they all do when
they are checksums and letters without a meaning.
-/

namespace GcodeLink

/-! ## Later conversions -/

/--
Conversions that follow others keep a slot with its mark: the last that succeeds
gives the number that is there, and the last of all succeeds exactly if the mark
is set.
-/
structure SlotKeeps
    {width : Type} (later : List (Except Fault width)) (slot : width)
    (mark : Bool) : Prop where
  slot : Keeps later slot
  mark : ∀ result, later.getLast? = some result → result.isOk = mark

theorem SlotKeeps.nil {width : Type} (slot : width) (mark : Bool) :
    SlotKeeps [] slot mark :=
  ⟨fun _ => nofun, fun _ => nofun⟩

/-- Conversions that follow others leave the slot and its mark alone exactly if they keep them. -/
theorem SlotReads.append_iff
    {width : Type} {front back : List (Except Fault width)}
    {before slot slot' : width} {mark mark' : Bool}
    (reads : SlotReads front before slot mark)
    (longer : SlotReads (front ++ back) before slot' mark') :
    (slot' = slot ∧ mark' = mark) ↔ SlotKeeps back slot mark := by
  have number : slot' = lastNumber back slot := by
    rw [longer.slot, reads.slot]
    exact lastNumber_append front back before
  have last :
      mark' = mark ↔
        ∀ result, back.getLast? = some result → result.isOk = mark := by
    rw [longer.mark, reads.mark, List.getLast?_append]
    cases back.getLast? with
    | none => simp
    | some result => simp
  rw [number, lastNumber_eq_iff, last]
  exact ⟨fun ⟨slot, mark⟩ => ⟨slot, mark⟩, fun keeps => ⟨keeps.slot, keeps.mark⟩⟩

namespace Entry

/-- Later fields leave the code of a line alone if they have none, or one that says the same. -/
theorem codes_append_iff (front back : List Entry) :
    (gCode? (front ++ back) = gCode? front ∧
        mCode? (front ++ back) = mCode? front) ↔
      ∀ entry, lastCode? back = some entry →
        gCode? back = gCode? front ∧ mCode? back = mCode? front := by
  have last :
      lastCode? (front ++ back) = (lastCode? back).or (lastCode? front) := by
    rw [lastCode?, List.filter_append, List.getLast?_append]
    rfl
  cases code : lastCode? back with
  | none =>
      rw [code, Option.none_or] at last
      rw [gCode?, mCode?, last]
      constructor
      · intro _ entry impossible
        cases impossible
      · intro _
        exact ⟨rfl, rfl⟩
  | some entry =>
      rw [code, Option.some_or] at last
      have gCode : gCode? (front ++ back) = gCode? back := by
        rw [gCode?, gCode?, last, code]
      have mCode : mCode? (front ++ back) = mCode? back := by
        rw [mCode?, mCode?, last, code]
      rw [gCode, mCode]
      exact ⟨fun same _ _ => same, fun same => same entry rfl⟩

end Entry

/-! ## What later fields keep -/

namespace Command

/-- Fields that follow others change nothing of what the record says. -/
structure KeepsEntries
    (record : Command) (scale : Scale) (earlier later : List Entry) :
    Prop where
  /-- A code names the command that the record has already. -/
  codes : ∀ entry, Entry.lastCode? later = some entry →
    Entry.gCode? later = record.gCode? ∧ Entry.mCode? later = record.mCode?
  axis : ∀ axis,
    SlotKeeps
      (Entry.conversionsAfter Int32 scale record.settings.inches earlier
        (.axis axis) later)
      (record.target.position.get axis) (record.seen.contains (.axis axis))
  feed :
    SlotKeeps
      (Entry.conversionsAfter UInt32 scale record.settings.inches earlier
        .feed later)
      record.target.feed (record.seen.contains .feed)
  s :
    SlotKeeps
      (Entry.conversionsAfter Int16 scale record.settings.inches earlier .s
        later)
      record.s (record.seen.contains .s)
  lineNumber :
    SlotKeeps
      (Entry.conversionsAfter UInt32 scale record.settings.inches earlier
        .lineNumber later)
      record.lineNumber (record.seen.contains .lineNumber)
  p :
    SlotKeeps
      (Entry.conversionsAfter UInt16 scale record.settings.inches earlier .p
        later)
      record.p (record.seen.contains .p)

/-- Parts of a line that follow others change nothing of what the record says. -/
structure KeepsParts
    (record : Command) (scale : Scale) (earlier later : List Part) :
    Prop where
  entries :
    record.KeepsEntries scale (Part.entries earlier) (Part.entries later)
  /-- A filename is the one that the record has already. -/
  name : ∀ name, (later.filterMap Part.name?).getLast? = some name →
    name.take lineCapacity = record.filename.bytes ∧
      decide (lineCapacity < name.length) = record.filename.truncated

namespace ReadsEntries

variable
  {record longer before : Command} {scale : Scale}
  {earlier later : List Entry}

/-- A slot is as it was exactly if the later fields keep it. -/
theorem sameSlot_iff
    (reads : record.ReadsEntries before scale earlier)
    {field : Field} {width : Type} [Slot width] {old : width}
    (slot : Command → width)
    (front :
      SlotReads
        (Entry.conversions width scale before.settings.inches field earlier)
        old (slot record) (record.seen.contains field))
    (whole :
      SlotReads
        (Entry.conversions width scale before.settings.inches field
          (earlier ++ later))
        old (slot longer) (longer.seen.contains field)) :
    SameSlot field slot longer record ↔
      SlotKeeps
        (Entry.conversionsAfter width scale record.settings.inches earlier
          field later)
        (slot record) (record.seen.contains field) := by
  rw [Entry.conversions_append] at whole
  rw [reads.settings]
  exact front.append_iff whole

/-- A longer line says what its beginning says exactly if its other fields keep that. -/
theorem saysSame_iff
    (reads : record.ReadsEntries before scale earlier)
    (goesOn : longer.ReadsEntries before scale (earlier ++ later)) :
    longer.SaysSame record ↔ record.KeepsEntries scale earlier later := by
  have origin := goesOn.origin.trans reads.origin.symm
  have codes := Entry.codes_append_iff earlier later
  rw [← goesOn.gCode, ← goesOn.mCode, ← reads.gCode, ← reads.mCode] at codes
  have axis (axis : Axis) :=
    reads.sameSlot_iff (·.target.position.get axis) (reads.axis axis)
      (goesOn.axis axis)
  have feed := reads.sameSlot_iff (·.target.feed) reads.feed goesOn.feed
  have s := reads.sameSlot_iff (·.s) reads.s goesOn.s
  have p := reads.sameSlot_iff (·.p) reads.p goesOn.p
  have lineNumber :=
    reads.sameSlot_iff (·.lineNumber) reads.lineNumber goesOn.lineNumber
  constructor
  · rintro ⟨same, pause⟩
    obtain ⟨sameCodes, axes, sameFeed, sameS, sameNumber⟩ :=
      (saysSameButPause_iff origin).mp same
    exact
      { codes := codes.mp sameCodes
        axis along := (axis along).mp (axes along)
        feed := feed.mp sameFeed
        s := s.mp sameS
        lineNumber := lineNumber.mp sameNumber
        p := p.mp pause }
  · intro keeps
    exact
      { toSaysSameButPause :=
          (saysSameButPause_iff origin).mpr
            ⟨codes.mpr keeps.codes, fun along => (axis along).mpr (keeps.axis along),
              feed.mpr keeps.feed, s.mpr keeps.s,
              lineNumber.mpr keeps.lineNumber⟩
        pause := p.mpr keeps.p }

end ReadsEntries

/-- A longer line names what its beginning names exactly if its other parts keep that. -/
theorem Reads.sameName_iff
    {record longer before : Command} {scale : Scale} {earlier later : List Part}
    (reads : record.Reads before scale earlier)
    (goesOn : longer.Reads before scale (earlier ++ later)) :
    longer.SameName record ↔
      ∀ name, (later.filterMap Part.name?).getLast? = some name →
        name.take lineCapacity = record.filename.bytes ∧
          decide (lineCapacity < name.length) = record.filename.truncated := by
  rw [SameName, goesOn.filename, goesOn.truncated, Part.lastName,
    List.filterMap_append, List.getLast?_append]
  cases (later.filterMap Part.name?).getLast? with
  | none =>
      constructor
      · intro _ name impossible
        cases impossible
      · intro _
        exact ⟨reads.filename.symm, reads.truncated.symm⟩
  | some name =>
      exact
        ⟨fun same _ here => Option.some.inj here ▸ same,
          fun keeps => keeps name rfl⟩

/-- A longer line says and names what its beginning does exactly if its other parts keep that. -/
theorem Reads.saysSame_iff
    {record longer before : Command} {scale : Scale} {earlier later : List Part}
    (reads : record.Reads before scale earlier)
    (goesOn : longer.Reads before scale (earlier ++ later)) :
    longer.SaysSame record ∧ longer.SameName record ↔
      record.KeepsParts scale earlier later := by
  have entries := goesOn.entries
  rw [Part.entries_append] at entries
  rw [reads.entries.saysSame_iff entries, reads.sameName_iff goesOn]
  exact
    ⟨fun ⟨entries, name⟩ => ⟨entries, name⟩,
      fun keeps => ⟨keeps.entries, keeps.name⟩⟩

end Command

/-! ## Parts that say nothing -/

/-- A field that changes nothing of what a line says. -/
def Field.isSilent : Field → Bool
  | .checksum | .unknown _ => true
  | _ => false

namespace Part

theorem ofByte_of_takesName
    {opener : UInt8} {body : List UInt8}
    (takes : takesName opener body = true) :
    Field.ofByte (Byte.fold opener) = .m := by
  rw [takesName] at takes
  split at takes
  · assumption
  · cases takes

/-- A filename follows an `M`. -/
theorem exists_m_of_filename
    {line name : List UInt8} (member : filename name ∈ ofBytes line) :
    ∃ entry ∈ entries (ofBytes line), entry.field = .m := by
  obtain ⟨front, back, split⟩ := List.append_of_mem member
  obtain ⟨earlier, opener, body, rfl, takes⟩ :=
    (surrounds_of_ofBytes split).follows
  have present : field opener body ∈ ofBytes line := by
    rw [split]
    simp
  exact
    ⟨_, List.mem_filterMap.mpr ⟨_, present, rfl⟩, ofByte_of_takesName takes⟩

end Part

/-- Parts without a field that says something keep any record. -/
theorem Command.KeepsParts.of_silent
    (record : Command) (scale : Scale) (earlier : List Part)
    {line : List UInt8}
    (silent :
      ∀ entry ∈ Part.entries (Part.ofBytes line),
        entry.field.isSilent = true) :
    record.KeepsParts scale earlier (Part.ofBytes line) := by
  have absent {field : Field} (speaks : field.isSilent = false) :
      ∀ entry ∈ Part.entries (Part.ofBytes line), entry.field ≠ field := by
    rintro entry member rfl
    rw [silent entry member] at speaks
    cases speaks
  have keeps
      {width : Type} [Slot width] {field : Field} (slot : width) (mark : Bool)
      (speaks : field.isSilent = false) :
      SlotKeeps
        (Entry.conversionsAfter width scale record.settings.inches
          (Part.entries earlier) field (Part.entries (Part.ofBytes line)))
        slot mark := by
    rw [Entry.conversionsAfter_of_absent _ _ _ _ (absent speaks)]
    exact SlotKeeps.nil slot mark
  have codes (entry : Entry)
      (last :
        Entry.lastCode? (Part.entries (Part.ofBytes line)) = some entry) :
      False := by
    obtain ⟨member, code⟩ := List.mem_filter.mp (List.mem_of_getLast? last)
    rw [Entry.isCode, Bool.or_eq_true, decide_eq_true_eq,
      decide_eq_true_eq] at code
    rcases code with isG | isM
    · exact absent rfl entry member isG
    · exact absent rfl entry member isM
  have names (name : List UInt8)
      (last :
        ((Part.ofBytes line).filterMap Part.name?).getLast? = some name) :
      False := by
    obtain ⟨part, member, named⟩ :=
      List.mem_filterMap.mp (List.mem_of_getLast? last)
    cases part with
    | filename _ =>
        obtain ⟨entry, member, isM⟩ := Part.exists_m_of_filename member
        exact absent rfl entry member isM
    | field _ _ | comment _ | blank _ =>
        cases named
  exact
    { entries :=
        { codes entry last := (codes entry last).elim
          axis _ := keeps _ _ rfl
          feed := keeps _ _ rfl
          s := keeps _ _ rfl
          lineNumber := keeps _ _ rfl
          p := keeps _ _ rfl }
      name name last := (names name last).elim }

namespace Receiver

/--
A line says and names what its bytes before the mark say and name exactly if the
fields after the mark keep that, and they do if none of them says anything.
-/
theorem deliveries_marked
    (listener : Verdict → Command → Command)
    {receiver : Receiver} (start : receiver.AtLineStart)
    {body rest : List UInt8}
    (plain : Byte.Unterminated body) (plainRest : Byte.Unterminated rest)
    (outside : (receiver.stepAll body).phase.isComment = false)
    {terminator : UInt8} (ends : Byte.isTerminator terminator = true) :
    ∃ verdict record verdict' record',
      receiver.deliveries listener (body ++ [terminator]) =
          [(verdict, record)] ∧
        receiver.deliveries listener
            (body ++ Byte.asterisk :: rest ++ [terminator]) =
          [(verdict', record')] ∧
        (record'.SaysSame record ∧ record'.SameName record ↔
          record.KeepsParts receiver.scale (Part.ofBytes body)
            (Part.ofBytes (Byte.asterisk :: rest))) ∧
        ((∀ entry ∈ Part.entries (Part.ofBytes (Byte.asterisk :: rest)),
            entry.field.isSilent = true) →
          record'.SaysSame record ∧ record'.SameName record) := by
  have plainLine : Byte.Unterminated (body ++ Byte.asterisk :: rest) :=
    Byte.unterminated_append.mpr
      ⟨plain, Byte.unterminated_cons.mpr ⟨rfl, plainRest⟩⟩
  have reads := reads_delivered start body ends
  have goesOn := reads_delivered start (body ++ Byte.asterisk :: rest) ends
  rw [Part.ofBytes_append_asterisk start.1 outside] at goesOn
  have same := reads.saysSame_iff goesOn
  exact
    ⟨_, _, _, _, deliveries_line listener receiver plain ends,
      deliveries_line listener receiver plainLine ends, same,
      fun silent => same.mpr (.of_silent _ _ _ silent)⟩

/-- Whether `G1X1*31X5` says what `G1X1` says turns on what its `X5` keeps. -/
theorem deliveries_marked_move :
    ∃ verdict record verdict' record',
      hundredSteps.deliveries keep ([71, 49, 88, 49] ++ [Byte.lineFeed]) =
          [(verdict, record)] ∧
        hundredSteps.deliveries keep
            ([71, 49, 88, 49] ++ Byte.asterisk :: [51, 49, 88, 53] ++
              [Byte.lineFeed]) =
          [(verdict', record')] ∧
        (record'.SaysSame record ∧ record'.SameName record ↔
          record.KeepsParts hundredSteps.scale
            (Part.ofBytes [71, 49, 88, 49])
            (Part.ofBytes (Byte.asterisk :: [51, 49, 88, 53]))) ∧
        ((∀ entry ∈
              Part.entries (Part.ofBytes (Byte.asterisk :: [51, 49, 88, 53])),
            entry.field.isSilent = true) →
          record'.SaysSame record ∧ record'.SameName record) :=
  deliveries_marked keep (atLineStart_new .lenient _) (by decide) (by decide)
    rfl rfl

/-- An accepted line may say more than its covered bytes: `G1X1*31X5` moves to five. -/
theorem not_always_covered :
    ¬ ∀ (receiver : Receiver) (body rest : List UInt8) (terminator : UInt8)
        (record other : Command) (verdict : Verdict),
        receiver.AtLineStart →
        Byte.Unterminated body →
        Byte.Unterminated rest →
        (receiver.stepAll body).phase.isComment = false →
        Byte.isTerminator terminator = true →
        receiver.deliveries keep
            (body ++ Byte.asterisk :: rest ++ [terminator]) =
          [(.accepted, record)] →
        receiver.deliveries keep (body ++ [terminator]) =
          [(verdict, other)] →
        record.SaysSame other ∧ record.SameName other := by
  intro covered
  let line : List UInt8 := [71, 49, 88, 49] ++ Byte.asterisk :: [51, 49, 88, 53]
  have plain : Byte.Unterminated line := by
    decide
  have ends : Byte.isTerminator Byte.lineFeed = true := rfl
  have accepted :
      (hundredSteps.complete line Byte.lineFeed).verdict = .accepted := by
    decide
  have delivered := deliveries_line keep hundredSteps plain ends
  rw [accepted] at delivered
  have same :=
    covered hundredSteps [71, 49, 88, 49] [51, 49, 88, 53] Byte.lineFeed _ _ _
      (atLineStart_new .lenient _) (by decide) (by decide) rfl ends delivered
      (deliveries_line keep hundredSteps (by decide) ends)
  exact absurd same.1.target (by decide)

end Receiver

end GcodeLink
