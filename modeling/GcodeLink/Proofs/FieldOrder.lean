import GcodeLink.Proofs.Command.Agreement

/-!
# The order of the fields of a line

The fields of a line may come in any order, and for almost all of them it does
not matter in which.  A slot is written by its own field only, and a code is the
code of the line wherever it stands.  What a field is converted to can depend on
its place in one case: a pause that a `G4` comes before is taken to be in seconds,
and any other is kept as it is written.

Two lines of the same fields say the same, except for their pauses; and they say
the same altogether exactly if their pauses are converted to the same.
-/

namespace GcodeLink

/-- A list of at most one entry has no other order. -/
theorem eq_of_perm_of_length_le_one
    {α : Type} {list other : List α}
    (same : list.Perm other) (short : list.length ≤ 1) :
    list = other := by
  match list, short with
  | [], _ =>
      exact same.symm.eq_nil.symm
  | [_], _ =>
      exact List.singleton_perm.mp same

namespace Entry

variable {scale : Scale} {inches : Bool} {entries others : List Entry}

/-- No two fields are of one kind, and at most one is a code. -/
structure Single (entries : List Entry) : Prop where
  distinct : (entries.map (·.field)).Nodup
  code : (entries.filter isCode).length ≤ 1

namespace Single

theorem of_perm
    (single : Single entries) (same : entries.Perm others) :
    Single others where
  distinct := (same.map _).nodup_iff.mp single.distinct
  code := (same.filter _).length_eq ▸ single.code

theorem length_filter_le
    (single : Single entries) (field : Field) :
    (entries.filter (isOf field)).length ≤ 1 := by
  have all :
      (entries.filter (isOf field)).map (·.field) =
        List.replicate (entries.filter (isOf field)).length field := by
    refine List.eq_replicate_iff.mpr ⟨List.length_map _, ?_⟩
    intro other member
    obtain ⟨entry, found, rfl⟩ := List.mem_map.mp member
    simpa [isOf] using (List.mem_filter.mp found).2
  rw [← List.nodup_replicate, ← all]
  exact single.distinct.sublist (List.filter_sublist.map _)

theorem filter_isOf_eq
    (single : Single entries) (same : entries.Perm others) (field : Field) :
    entries.filter (isOf field) = others.filter (isOf field) :=
  eq_of_perm_of_length_le_one (same.filter _) (single.length_filter_le field)

end Single

/-! ## What does not depend on the order -/

/-- The code of a line is its code wherever it stands. -/
theorem codes_eq_of_perm
    (single : Single entries) (same : entries.Perm others) :
    gCode? entries = gCode? others ∧ mCode? entries = mCode? others := by
  have last : lastCode? entries = lastCode? others := by
    rw [lastCode?, lastCode?,
      eq_of_perm_of_length_le_one (same.filter isCode) single.code]
  rw [gCode?, gCode?, mCode?, mCode?, last]
  exact ⟨rfl, rfl⟩

theorem ratio_eq_of_ne
    {field : Field} (noPause : field ≠ .p) (earlier : List Entry) :
    ratio scale inches earlier field = ratio scale inches [] field := by
  cases field with
  | p =>
      exact absurd rfl noPause
  | g | m | axis _ | feed | s | lineNumber | checksum | unknown _ =>
      rfl

/-- A field other than the pause is converted on its own. -/
theorem conversions_eq_map
    (width : Type) [Slot width] {field : Field} (noPause : field ≠ .p)
    (entries : List Entry) :
    conversions width scale inches field entries =
      (entries.filter (isOf field)).map
        (·.value.fit (ratio scale inches [] field)) := by
  induction entries using List.reverseRecOn with
  | nil =>
      rfl
  | append_singleton entries entry ih =>
      rw [List.filter_append, List.map_append, ← ih]
      by_cases own : entry.field = field
      · obtain ⟨_, value⟩ := entry
        subst own
        rw [conversions_append_self, ratio_eq_of_ne noPause]
        simp [isOf]
      · rw [conversions_append_of_ne _ _ _ _ own]
        simp [isOf, own]

theorem conversions_eq_of_perm
    (width : Type) [Slot width] {field : Field} (noPause : field ≠ .p)
    (single : Single entries) (same : entries.Perm others) :
    conversions width scale inches field entries =
      conversions width scale inches field others := by
  rw [conversions_eq_map width noPause, conversions_eq_map width noPause,
    single.filter_isOf_eq same]

/-- A line is malformed for a field other than the pause, or for the pause. -/
theorem anyMalformed_eq (entries : List Entry) :
    anyMalformed scale inches entries =
      (entries.any (fun entry =>
          decide (entry.field ≠ .p) &&
            !entry.field.converts (ratio scale inches [] entry.field)
              entry.value) ||
        (conversions UInt16 scale inches .p entries).any (!·.isOk)) := by
  induction entries using List.reverseRecOn with
  | nil =>
      rfl
  | append_singleton entries entry ih =>
      rw [anyMalformed_append, ih, List.any_append]
      by_cases pause : entry.field = .p
      · obtain ⟨_, value⟩ := entry
        subst pause
        rw [conversions_append_self, List.any_append]
        simp [Field.converts, Bool.or_assoc]
      · rw [conversions_append_of_ne _ _ _ _ pause, ratio_eq_of_ne pause]
        simp [pause, Bool.or_right_comm]

/-- Whether a line is malformed depends on the order through its pause only. -/
theorem anyMalformed_eq_of_perm
    (same : entries.Perm others)
    (pause :
      conversions UInt16 scale inches .p entries =
        conversions UInt16 scale inches .p others) :
    anyMalformed scale inches entries = anyMalformed scale inches others := by
  rw [anyMalformed_eq, anyMalformed_eq, same.any_eq, pause]

/-! ## The pause -/

/-- The fields before the pause of a line make it a dwell. -/
def dwells (entries : List Entry) : Bool :=
  gCode? (entries.takeWhile (!isOf .p ·)) == some 4

/-- A line has no pause, or it is cut in two by its first. -/
theorem exists_pause (entries : List Entry) :
    (∀ entry ∈ entries, entry.field ≠ .p) ∨
      ∃ value rest,
        entries = entries.takeWhile (!isOf .p ·) ++ ⟨.p, value⟩ :: rest := by
  induction entries with
  | nil =>
      exact Or.inl nofun
  | cons entry later ih =>
      by_cases pause : entry.field = .p
      · obtain ⟨_, value⟩ := entry
        subst pause
        exact Or.inr ⟨value, later, rfl⟩
      · rcases ih with absent | ⟨value, rest, cut⟩
        · exact Or.inl (List.forall_mem_cons.mpr ⟨pause, absent⟩)
        · refine Or.inr ⟨value, rest, ?_⟩
          rw [List.takeWhile_cons_of_pos (by simpa [isOf] using pause),
            List.cons_append, ← cut]

theorem filter_isOf_of_absent
    {field : Field} (absent : ∀ entry ∈ entries, entry.field ≠ field) :
    entries.filter (isOf field) = [] := by
  refine List.filter_eq_nil_iff.mpr ?_
  intro entry member
  simpa [isOf] using absent entry member

/-- The pause is converted in the unit that the fields before it give. -/
theorem conversions_pause (single : Single entries) :
    conversions UInt16 scale inches .p entries =
      (entries.filter (isOf .p)).map
        (·.value.fit (pauseRatio (dwells entries))) := by
  rcases exists_pause entries with absent | ⟨value, rest, cut⟩
  · rw [filter_isOf_of_absent absent]
    exact conversionsAfter_of_absent UInt16 scale inches [] absent
  · have before :
        ∀ entry ∈ entries.takeWhile (!isOf .p ·), entry.field ≠ .p := by
      intro entry member
      simpa [isOf] using List.mem_takeWhile_imp member
    have short := single.length_filter_le .p
    rw [dwells]
    generalize entries.takeWhile (!isOf .p ·) = front at cut before ⊢
    have after : ∀ entry ∈ rest, entry.field ≠ .p := by
      rintro entry member pause
      have second : entry ∈ rest.filter (isOf .p) :=
        List.mem_filter.mpr ⟨member, by simp [isOf, pause]⟩
      rw [cut, List.filter_append, List.filter_cons_of_pos (by simp [isOf]),
        List.length_append, List.length_cons] at short
      have := List.length_pos_of_mem second
      omega
    have none : conversions UInt16 scale inches .p front = [] :=
      conversionsAfter_of_absent UInt16 scale inches [] before
    rw [cut, conversions_append, none, List.nil_append, List.filter_append,
      filter_isOf_of_absent before, List.nil_append,
      List.filter_cons_of_pos (by simp [isOf]), filter_isOf_of_absent after]
    have last :=
      conversionsAfter_of_absent UInt16 scale inches (front ++ [⟨.p, value⟩])
        after
    simpa [conversionsAfter, placed, ratio] using last

/-- A line that is no `G4` has no dwell. -/
theorem dwells_eq_false
    (single : Single entries) (other : gCode? entries ≠ some 4) :
    dwells entries = false := by
  rw [dwells, beq_eq_false_iff_ne]
  intro dwell
  apply other
  rw [← dwell]
  have cut :=
    List.takeWhile_append_dropWhile (p := (!isOf .p ·)) (l := entries)
  generalize entries.takeWhile (!isOf .p ·) = front at cut dwell ⊢
  generalize entries.dropWhile (!isOf .p ·) = back at cut
  subst cut
  cases codes : front.filter isCode with
  | nil =>
      rw [gCode?, lastCode?, codes] at dwell
      cases dwell
  | cons entry others =>
      have short := single.code
      rw [List.filter_append, List.length_append, codes,
        List.length_cons] at short
      have none : back.filter isCode = [] :=
        List.eq_nil_of_length_eq_zero (by omega)
      rw [gCode?, gCode?, lastCode?, lastCode?, List.filter_append, none,
        List.append_nil]

end Entry

/-! ## Records of lines of the same fields -/

/-- A literal that does not fit is too great, whatever the ratio. -/
theorem Literal.fault_of_fit
    {width : Type} [Slot width] {value : Literal} {ratio : Ratio}
    {fault : Fault} (fails : (value.fit ratio : Except Fault width) = .error fault) :
    fault = .numberOverflow := by
  rw [fit] at fails
  cases scaled : value.scaled ratio with
  | error cause =>
      rw [scaled] at fails
      cases fails
      exact (scaled_eq_error_iff.mp scaled).1
  | ok number =>
      rw [scaled] at fails
      exact (narrow_eq_error_iff.mp fails).1

/-- Literals that are converted to the same number, or both to none, are converted to the same. -/
theorem Literal.fit_eq_of_toOption
    {width : Type} [Slot width] {value : Literal} {ratio other : Ratio}
    (same :
      (value.fit ratio : Except Fault width).toOption =
        (value.fit other : Except Fault width).toOption) :
    (value.fit ratio : Except Fault width) = value.fit other := by
  cases left : (value.fit ratio : Except Fault width) with
  | error fault =>
      cases right : (value.fit other : Except Fault width) with
      | error fault' =>
          rw [fault_of_fit left, fault_of_fit right]
      | ok number =>
          rw [left, right] at same
          cases same
  | ok number =>
      cases right : (value.fit other : Except Fault width) with
      | error fault' =>
          rw [left, right] at same
          cases same
      | ok number' =>
          rw [left, right] at same
          exact congrArg Except.ok (Option.some.inj same)

theorem SlotReads.unique
    {width : Type} {results : List (Except Fault width)}
    {before slot slot' : width} {mark mark' : Bool}
    (reads : SlotReads results before slot mark)
    (again : SlotReads results before slot' mark') :
    slot = slot' ∧ mark = mark' :=
  ⟨reads.slot.trans again.slot.symm, reads.mark.trans again.mark.symm⟩

namespace Command.ReadsEntries

variable
  {record other before : Command} {scale : Scale}
  {entries others : List Entry}

/-- Whatever their order, the fields of a line say the same but for the pause. -/
theorem saysSameButPause_of_perm
    (reads : record.ReadsEntries before scale entries)
    (permuted : other.ReadsEntries before scale others)
    (single : Entry.Single entries) (same : entries.Perm others) :
    record.SaysSameButPause other := by
  have slot
      {width : Type} [Slot width] (field : Field) (noPause : field ≠ .p)
      {old here there : width} {mark mark' : Bool}
      (left :
        SlotReads
          (Entry.conversions width scale before.settings.inches field entries)
          old here mark)
      (right :
        SlotReads
          (Entry.conversions width scale before.settings.inches field others)
          old there mark') :
      here = there ∧ mark = mark' := by
    rw [Entry.conversions_eq_of_perm width noPause single same] at left
    exact left.unique right
  have codes := Entry.codes_eq_of_perm single same
  rw [← reads.gCode, ← reads.mCode, ← permuted.gCode, ← permuted.mCode] at codes
  exact
    (saysSameButPause_iff (reads.origin.trans permuted.origin.symm)).mpr
      ⟨codes,
        fun axis =>
          slot (.axis axis) nofun (reads.axis axis) (permuted.axis axis),
        slot .feed nofun reads.feed permuted.feed,
        slot .s nofun reads.s permuted.s,
        slot .lineNumber nofun reads.lineNumber permuted.lineNumber⟩

/-- Their pauses are the same exactly if they are converted to the same. -/
theorem pause_iff_of_perm
    (reads : record.ReadsEntries before scale entries)
    (permuted : other.ReadsEntries before scale others)
    (single : Entry.Single entries) (same : entries.Perm others) :
    SameSlot .p (·.p) record other ↔
      Entry.conversions UInt16 scale before.settings.inches .p entries =
        Entry.conversions UInt16 scale before.settings.inches .p others := by
  constructor
  · rintro ⟨slot, mark⟩
    have pause : record.p = other.p := slot
    have last := reads.p.getLast?
    rw [pause, mark, ← permuted.p.getLast?] at last
    rw [Entry.conversions_pause single,
      Entry.conversions_pause (single.of_perm same),
      ← single.filter_isOf_eq same] at last ⊢
    have short := single.length_filter_le .p
    generalize entries.filter (Entry.isOf .p) = pauses at short last ⊢
    cases pauses with
    | nil =>
        rfl
    | cons entry rest =>
        have alone : rest = [] :=
          List.length_eq_zero_iff.mp (Nat.le_zero.mp (Nat.le_of_succ_le_succ short))
        subst alone
        exact congrArg ([·]) (Literal.fit_eq_of_toOption last)
  · intro equal
    have left := reads.p
    rw [equal] at left
    exact left.unique permuted.p

/-- They say the same altogether exactly if their pauses are converted to the same. -/
theorem saysSame_iff_of_perm
    (reads : record.ReadsEntries before scale entries)
    (permuted : other.ReadsEntries before scale others)
    (single : Entry.Single entries) (same : entries.Perm others) :
    record.SaysSame other ∧ record.malformed = other.malformed ↔
      Entry.conversions UInt16 scale before.settings.inches .p entries =
        Entry.conversions UInt16 scale before.settings.inches .p others := by
  constructor
  · rintro ⟨⟨_, pause⟩, _⟩
    exact (reads.pause_iff_of_perm permuted single same).mp pause
  · intro equal
    refine ⟨⟨?_, ?_⟩, ?_⟩
    · exact reads.saysSameButPause_of_perm permuted single same
    · exact (reads.pause_iff_of_perm permuted single same).mpr equal
    · rw [reads.malformed, permuted.malformed,
        Entry.anyMalformed_eq_of_perm same equal]

end Command.ReadsEntries

/-! ## Written fields -/

/-- A field as it is written: its letter, and the bytes up to the next field. -/
structure Word where
  letter : UInt8
  body : List UInt8
  isLetter : Byte.isCapital (Byte.fold letter) = true
  isBody : ∀ byte ∈ body, Part.isBody byte = true

namespace Word

/-- The bytes of a field. -/
def text (word : Word) : List UInt8 :=
  word.letter :: word.body

/-- The field among the parts of its line. -/
def part (word : Word) : Part :=
  .field word.letter word.body

/-- The field with its literal. -/
def entry (word : Word) : Entry where
  field := .ofByte (Byte.fold word.letter)
  value := Part.literal word.body

/-- The line that is made of fields. -/
def line (words : List Word) : List UInt8 :=
  words.flatMap text

theorem entries_map_part (words : List Word) :
    Part.entries (words.map part) = words.map entry := by
  rw [Part.entries, List.filterMap_map, ← List.filterMap_eq_map]
  rfl

theorem any_isMark_map_part (words : List Word) :
    (words.map part).any Part.isMark = false := by
  rw [List.any_eq_false]
  rintro _ member
  obtain ⟨word, _, rfl⟩ := List.mem_map.mp member
  intro mark
  have letter : word.letter = Byte.asterisk := beq_iff_eq.mp mark
  have capital := word.isLetter
  rw [letter] at capital
  cases capital

theorem unterminated_line (words : List Word) :
    Byte.Unterminated (line words) := by
  intro byte member
  obtain ⟨word, _, inside⟩ := List.mem_flatMap.mp member
  rw [← Bool.not_eq_true]
  intro ends
  rcases List.mem_cons.mp inside with rfl | inBody
  · have capital := word.isLetter
    rw [Byte.fold_of_isTerminator ends, Byte.isCapital_of_isTerminator ends]
      at capital
    cases capital
  · have goesOn := word.isBody byte inBody
    rw [Part.isBody, Byte.fold_of_isTerminator ends,
      Byte.endsField_of_isTerminator ends] at goesOn
    cases goesOn

/-- A line of fields is cut into these, if a filename follows none of them. -/
theorem ofBytes_line
    {words : List Word}
    (unnamed : ∀ word ∈ words,
      Part.takesName word.letter word.body = false) :
    Part.ofBytes (line words) = words.map part := by
  induction words with
  | nil =>
      rw [line, List.flatMap_nil, Part.ofBytes, List.map_nil]
  | cons word rest ih =>
      obtain ⟨first, later⟩ := List.forall_mem_cons.mp unnamed
      have opens : Byte.opensField (Byte.fold word.letter) = true := by
        rw [Byte.opensField, word.isLetter, Bool.true_or]
      have stops :
          (line rest).takeWhile Part.isBody = [] ∧
            (line rest).dropWhile Part.isBody = line rest := by
        cases rest with
        | nil =>
            exact ⟨rfl, rfl⟩
        | cons next others =>
            have closes : ¬ Part.isBody next.letter = true := by
              simp [Part.isBody, Byte.endsField, next.isLetter]
            exact
              ⟨List.takeWhile_cons_of_neg closes,
                List.dropWhile_cons_of_neg closes⟩
      have body :
          (word.body ++ line rest).takeWhile Part.isBody = word.body := by
        rw [List.takeWhile_append_of_pos word.isBody, stops.1, List.append_nil]
      have after :
          (word.body ++ line rest).dropWhile Part.isBody = line rest := by
        rw [List.dropWhile_append_of_pos word.isBody, stops.2]
      have text : line (word :: rest) = word.letter :: (word.body ++ line rest) :=
        rfl
      have unnamed :
          (Part.takesName word.letter
              ((word.body ++ line rest).takeWhile Part.isBody) &&
            Part.startsWithLetter
              ((word.body ++ line rest).dropWhile Part.isBody)) = false := by
        rw [body, first, Bool.false_and]
      rw [text, Part.ofBytes_of_unnamed opens unnamed, body, after, ih later]
      rfl

/-- The field `G4`. -/
def dwell : Word where
  letter := 71
  body := [52]
  isLetter := rfl
  isBody := List.forall_mem_singleton.mpr rfl

/-- The field `P2`. -/
def twoSeconds : Word where
  letter := 80
  body := [50]
  isLetter := rfl
  isBody := List.forall_mem_singleton.mpr rfl

/-- The field `G4` is the only code beside `P2`. -/
theorem single_dwell : Entry.Single ([dwell, twoSeconds].map entry) :=
  ⟨by decide, by decide⟩

end Word

namespace Receiver

/-- The record of a line of fields says what these say, and no checksum was seen. -/
theorem reads_delivered_words
    {receiver : Receiver} (start : receiver.AtLineStart)
    {words : List Word}
    (unnamed : ∀ word ∈ words,
      Part.takesName word.letter word.body = false)
    {terminator : UInt8} (ends : Byte.isTerminator terminator = true) :
    (receiver.complete (Word.line words) terminator).delivered.ReadsEntries
        receiver.command receiver.scale (words.map Word.entry) ∧
      (receiver.complete (Word.line words)
        terminator).delivered.seen.checksum = false := by
  have reads := reads_delivered start (Word.line words) ends
  rw [Word.ofBytes_line unnamed] at reads
  have entries := reads.entries
  rw [Word.entries_map_part] at entries
  exact ⟨entries, reads.checksum.trans (Word.any_isMark_map_part words)⟩

/--
Lines of the same fields say the same but for their pauses.  They say the same
altogether, and are malformed or not, exactly if their pauses are converted to
the same.  They are if in both lines the code stands on the same side of the
pause, and in any line that is no `G4`.
-/
theorem deliveries_perm
    (listener : Verdict → Command → Command)
    {receiver : Receiver} (start : receiver.AtLineStart)
    {words others : List Word} (same : words.Perm others)
    (single : Entry.Single (words.map Word.entry))
    (unnamed : ∀ word ∈ words,
      Part.takesName word.letter word.body = false)
    {terminator : UInt8} (ends : Byte.isTerminator terminator = true) :
    ∃ verdict record verdict' record',
      receiver.deliveries listener (Word.line words ++ [terminator]) =
          [(verdict, record)] ∧
        receiver.deliveries listener (Word.line others ++ [terminator]) =
          [(verdict', record')] ∧
        record.SaysSameButPause record' ∧
        record.seen.checksum = record'.seen.checksum ∧
        (record.SaysSame record' ∧ record.malformed = record'.malformed ↔
          Entry.conversions UInt16 receiver.scale
              receiver.command.settings.inches .p (words.map Word.entry) =
            Entry.conversions UInt16 receiver.scale
              receiver.command.settings.inches .p (others.map Word.entry)) ∧
        (Entry.dwells (words.map Word.entry) =
              Entry.dwells (others.map Word.entry) ∨
            Entry.gCode? (words.map Word.entry) ≠ some 4 →
          record.SaysSame record' ∧ record.malformed = record'.malformed) := by
  have unnamed' : ∀ word ∈ others,
      Part.takesName word.letter word.body = false :=
    fun word member => unnamed word (same.mem_iff.mpr member)
  obtain ⟨reads, unmarked⟩ := reads_delivered_words start unnamed ends
  obtain ⟨permuted, unmarked'⟩ := reads_delivered_words start unnamed' ends
  have sameEntries := same.map Word.entry
  have whole := reads.saysSame_iff_of_perm permuted single sameEntries
  refine
    ⟨_, _, _, _,
      deliveries_line listener receiver (Word.unterminated_line words) ends,
      deliveries_line listener receiver (Word.unterminated_line others) ends,
      reads.saysSameButPause_of_perm permuted single sameEntries,
      unmarked.trans unmarked'.symm, whole, ?_⟩
  intro sameUnit
  have unit :
      Entry.dwells (words.map Word.entry) =
        Entry.dwells (others.map Word.entry) := by
    rcases sameUnit with sameUnit | other
    · exact sameUnit
    · have other' : Entry.gCode? (others.map Word.entry) ≠ some 4 := by
        rw [← (Entry.codes_eq_of_perm single sameEntries).1]
        exact other
      rw [Entry.dwells_eq_false single other,
        Entry.dwells_eq_false (single.of_perm sameEntries) other']
  rw [whole, Entry.conversions_pause single,
    Entry.conversions_pause (single.of_perm sameEntries),
    single.filter_isOf_eq sameEntries, unit]

/-- Whether `G4P2` and `P2G4` say the same turns on what the `2` is converted to. -/
theorem deliveries_perm_dwell :
    ∃ verdict record verdict' record',
      hundredSteps.deliveries keep
          (Word.line [.dwell, .twoSeconds] ++ [Byte.lineFeed]) =
          [(verdict, record)] ∧
        hundredSteps.deliveries keep
            (Word.line [.twoSeconds, .dwell] ++ [Byte.lineFeed]) =
          [(verdict', record')] ∧
        record.SaysSameButPause record' ∧
        record.seen.checksum = record'.seen.checksum ∧
        (record.SaysSame record' ∧ record.malformed = record'.malformed ↔
          Entry.conversions UInt16 hundredSteps.scale
              hundredSteps.command.settings.inches .p
              ([Word.dwell, .twoSeconds].map Word.entry) =
            Entry.conversions UInt16 hundredSteps.scale
              hundredSteps.command.settings.inches .p
              ([Word.twoSeconds, .dwell].map Word.entry)) ∧
        (Entry.dwells ([Word.dwell, .twoSeconds].map Word.entry) =
              Entry.dwells ([Word.twoSeconds, .dwell].map Word.entry) ∨
            Entry.gCode? ([Word.dwell, .twoSeconds].map Word.entry) ≠ some 4 →
          record.SaysSame record' ∧ record.malformed = record'.malformed) :=
  deliveries_perm keep (atLineStart_new .lenient _) (List.Perm.swap _ _ _)
    Word.single_dwell (by decide) rfl

/-- The order may matter: `G4P2` waits two seconds, and `P2G4` two milliseconds. -/
theorem not_always_orderless :
    ¬ ∀ (receiver : Receiver) (words others : List Word) (terminator : UInt8)
        (verdict verdict' : Verdict) (record record' : Command),
        receiver.AtLineStart →
        words.Perm others →
        Entry.Single (words.map Word.entry) →
        (∀ word ∈ words, word.entry.field ∈ Field.meaningful) →
        (∀ word ∈ words, Part.takesName word.letter word.body = false) →
        (∀ word ∈ words, ∀ byte ∈ word.body,
          byte = Byte.minus ∨ byte = Byte.point ∨ Byte.isDigit byte = true) →
        Byte.isTerminator terminator = true →
        receiver.deliveries keep (Word.line words ++ [terminator]) =
          [(verdict, record)] →
        receiver.deliveries keep (Word.line others ++ [terminator]) =
          [(verdict', record')] →
        record.malformed = false →
        record'.malformed = false →
        record.SaysSame record' := by
  intro orderless
  have ends : Byte.isTerminator Byte.lineFeed = true := rfl
  have digits : ∀ word ∈ [Word.dwell, .twoSeconds], ∀ byte ∈ word.body,
      byte = Byte.minus ∨ byte = Byte.point ∨ Byte.isDigit byte = true :=
    List.forall_mem_cons.mpr
      ⟨List.forall_mem_singleton.mpr (Or.inr (Or.inr rfl)),
        List.forall_mem_singleton.mpr
          (List.forall_mem_singleton.mpr (Or.inr (Or.inr rfl)))⟩
  have same :=
    orderless hundredSteps [.dwell, .twoSeconds] [.twoSeconds, .dwell]
      Byte.lineFeed _ _ _ _ (atLineStart_new .lenient _)
      (List.Perm.swap _ _ _) Word.single_dwell (by decide) (by decide) digits
      ends
      (deliveries_line keep hundredSteps (Word.unterminated_line _) ends)
      (deliveries_line keep hundredSteps (Word.unterminated_line _) ends)
      (by decide) (by decide)
  exact absurd same.pause.1 (by decide)

end Receiver

end GcodeLink
