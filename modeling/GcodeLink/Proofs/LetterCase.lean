import GcodeLink.Proofs.Filename
import GcodeLink.Proofs.Isolation
import GcodeLink.Proofs.Part.Words

/-!
# Letter case

Letters are folded before they are read, but each byte is kept beside its fold
as it came.  The raw byte is used in two places only: it enters the sum, and it
is appended to the filename.  So two spellings of a line that differ in the case
of letters leave the same record behind after every byte, filename and sum
aside.

The filenames are the pieces of the two spellings at one and the same place, as
far as they fit.  Where that place is depends on folded bytes alone.
-/

namespace GcodeLink

/-- Another spelling of a line without a terminator has none either. -/
theorem Byte.unterminated_of_map_fold
    {line other : List UInt8} (plain : Unterminated line)
    (spells : line.map fold = other.map fold) :
    Unterminated other := by
  intro byte member
  have folded : fold byte ∈ line.map fold := by
    rw [spells]
    exact List.mem_map_of_mem member
  obtain ⟨original, inLine, same⟩ := List.mem_map.mp folded
  rw [← isTerminator_fold, ← same, isTerminator_fold]
  exact plain original inLine

/-! ## The place of a filename -/

/-- The filename holds a piece of a line, as far as it fits. -/
structure Filename.Copies
    (name : Filename) (line : List UInt8) (start count : Nat) : Prop where
  within : start + count ≤ line.length
  bytes : name.bytes = ((line.drop start).take count).take lineCapacity
  truncated : name.truncated = decide (lineCapacity < count)

namespace Filename.Copies

variable {name : Filename} {line : List UInt8} {start count : Nat}

/-- The piece stays where it is when the line goes on. -/
theorem append
    (copies : name.Copies line start count) (rest : List UInt8) :
    name.Copies (line ++ rest) start count where
  within := by
    rw [List.length_append]
    exact Nat.le_add_right_of_le copies.within
  bytes := by
    have within := copies.within
    rw [copies.bytes, List.drop_append_of_le_length (by omega),
      List.take_append_of_le_length]
    rw [List.length_drop]
    omega
  truncated := copies.truncated

/-- A filename without bytes is the empty piece. -/
theorem of_empty (bytes : name.bytes = []) (whole : name.truncated = false) :
    name.Copies line 0 0 where
  within := Nat.zero_le _
  bytes := by
    rw [bytes, List.take_zero, List.take_nil]
  truncated := whole

/-- At the end of the line, the piece goes on with the line. -/
theorem push
    (copies : name.Copies line start count)
    (reaches : start + count = line.length) (byte : UInt8) :
    (name.push byte).Copies (line ++ [byte]) start (count + 1) where
  within := by
    rw [List.length_append, List.length_singleton]
    omega
  bytes := by
    have piece : (line.drop start).length = count := by
      rw [List.length_drop]
      omega
    have longer : (line.drop start ++ [byte]).length = count + 1 := by
      rw [List.length_append, piece, List.length_singleton]
    rw [bytes_push, copies.bytes, take_take_append,
      List.drop_append_of_le_length (by omega),
      List.take_of_length_le (Nat.le_of_eq piece),
      List.take_of_length_le (Nat.le_of_eq longer)]
  truncated := by
    have held : name.bytes.length = min lineCapacity count := by
      rw [copies.bytes, List.length_take, List.length_take, List.length_drop]
      omega
    rw [truncated_push, copies.truncated, held, ← Bool.decide_or]
    congr 1
    rw [eq_iff_iff]
    omega

/-- A filename that starts with the last byte of the line is that byte. -/
theorem restart (name : Filename) (line : List UInt8) (byte : UInt8) :
    (name.clear.push byte).Copies (line ++ [byte]) line.length 1 := by
  have empty : name.clear.Copies line line.length 0 :=
    { within := Nat.le_refl _
      bytes := by
        rw [bytes_clear, List.take_zero, List.take_nil]
      truncated := rfl }
  exact empty.push rfl byte

end Filename.Copies

/-! ## What a byte does to the filename -/

/-- What a byte does to the filename. -/
inductive NameEdit where
  /-- It is the first byte of a new filename. -/
  | restart
  /-- It is the next byte of the filename. -/
  | extend
  /-- It is no byte of a filename. -/
  | leave
  deriving DecidableEq

/-- The filename after a byte as it came. -/
def NameEdit.apply (edit : NameEdit) (name : Filename) (raw : UInt8) : Filename :=
  match edit with
  | .restart => name.clear.push raw
  | .extend => name.push raw
  | .leave => name

/-- What a folded byte does to the filename, which depends on what is being read. -/
def Phase.nameEdit (phase : Phase) (byte : UInt8) : NameEdit :=
  match phase with
  | .field opened value =>
      if opened.namesFile value && Byte.isCapital byte then .restart else .leave
  | .filename => if Byte.endsFilename byte then .leave else .extend
  | .idle | .comment _ => .leave

/-- A filename goes on only while it is being read. -/
theorem Phase.eq_filename_of_extend
    {phase : Phase} {byte : UInt8} (goesOn : phase.nameEdit byte = .extend) :
    phase = .filename := by
  cases phase with
  | filename =>
      rfl
  | field opened value =>
      rw [nameEdit] at goesOn
      split at goesOn <;> cases goesOn
  | idle | comment _ =>
      cases goesOn

namespace Receiver

/-- Nothing that is opened between fields touches the filename. -/
theorem leaves_readIdle (receiver : Receiver) (byte : UInt8) :
    (receiver.readIdle byte).command.filename = receiver.command.filename ∧
      (receiver.readIdle byte).phase ≠ .filename := by
  rw [readIdle]
  split_ifs
  · exact ⟨Command.blind_filename.start _ _, by rintro ⟨⟩⟩
  · exact ⟨rfl, by rintro ⟨⟩⟩
  · exact ⟨rfl, by rintro ⟨⟩⟩
  · exact ⟨rfl, by rintro ⟨⟩⟩

section Leaves

variable {receiver : Receiver} (raw : UInt8)

/-- No filename begins between fields. -/
theorem leaves_step_idle (idle : receiver.phase = .idle) :
    (receiver.step raw).command.filename = receiver.command.filename ∧
      (receiver.step raw).phase ≠ .filename := by
  rw [step_idle idle]
  exact receiver.leaves_readIdle (Byte.fold raw)

/-- No filename begins in a comment. -/
theorem leaves_step_comment
    {comment : Comment} (inComment : receiver.phase = .comment comment) :
    (receiver.step raw).command.filename = receiver.command.filename ∧
      (receiver.step raw).phase ≠ .filename := by
  cases comment with
  | semicolon =>
      rw [step_semicolon inComment, inComment]
      exact ⟨rfl, by rintro ⟨⟩⟩
  | parens =>
      by_cases closes : raw = Byte.closeParen
      · rw [closes, step_closeParen inComment]
        exact ⟨rfl, by rintro ⟨⟩⟩
      · rw [step_of_isInside inComment (bne_iff_ne.mpr closes), inComment]
        exact ⟨rfl, by rintro ⟨⟩⟩

/-- No filename begins in the number of a field. -/
theorem leaves_step_body
    {field : Field} {value : Literal} (inField : receiver.phase = .field field value)
    (goesOn : ¬ Byte.endsField (Byte.fold raw) = true) :
    (receiver.step raw).command.filename = receiver.command.filename ∧
      (receiver.step raw).phase ≠ .filename := by
  have body : Part.isBody raw = true := by
    rw [Part.isBody, Bool.not_eq_true']
    exact Bool.eq_false_iff.mpr goesOn
  rw [step_of_isBody inField body]
  exact ⟨rfl, by rintro ⟨⟩⟩

/-- A field that settles begins a filename if it names a file and a letter ends it. -/
theorem edits_step_settles
    {field : Field} {value : Literal} (inField : receiver.phase = .field field value)
    (ends : Byte.endsField (Byte.fold raw) = true) :
    if field.namesFile value && Byte.isCapital (Byte.fold raw) then
      (receiver.step raw).command.filename =
          receiver.command.filename.clear.push raw ∧
        (receiver.step raw).phase = .filename
    else
      (receiver.step raw).command.filename = receiver.command.filename ∧
        (receiver.step raw).phase ≠ .filename := by
  rw [step_of_endsField inField ends, settleField_eq]
  split
  · next names =>
      rw [Bool.and_eq_true] at names
      have name : Part.isName raw = true := by
        rw [Part.isName, Part.not_endsFilename_of_isCapital names.2]
        rfl
      rw [step_of_isName rfl name]
      dsimp only
      rw [Command.blind_filename.settle]
      exact ⟨rfl, rfl⟩
  · let settled : Receiver :=
      { receiver with
        phase := .idle
        command := receiver.command.settle receiver.scale field value }
    have idle : settled.phase = .idle := rfl
    obtain ⟨name, phase⟩ := leaves_step_idle raw idle
    exact ⟨name.trans (Command.blind_filename.settle _ _ _ _), phase⟩

end Leaves

/-- A filename is read after a byte exactly if the byte belongs to it. -/
theorem edits_step (receiver : Receiver) (raw : UInt8) :
    (receiver.step raw).command.filename =
        (receiver.phase.nameEdit (Byte.fold raw)).apply
          receiver.command.filename raw ∧
      ((receiver.step raw).phase = .filename ↔
        receiver.phase.nameEdit (Byte.fold raw) ≠ .leave) := by
  have leave {name : Filename} {after : Receiver}
      (leaves : after.command.filename = name ∧ after.phase ≠ .filename) :
      after.command.filename = NameEdit.leave.apply name raw ∧
        (after.phase = .filename ↔ NameEdit.leave ≠ .leave) :=
    ⟨leaves.1, iff_of_false leaves.2 (fun edits => edits rfl)⟩
  cases inPhase : receiver.phase with
  | idle =>
      exact leave (leaves_step_idle raw inPhase)
  | comment comment =>
      exact leave (leaves_step_comment raw inPhase)
  | field field value =>
      by_cases ends : Byte.endsField (Byte.fold raw) = true
      · have settles := edits_step_settles raw inPhase ends
        rw [Phase.nameEdit]
        split
        · next names =>
            rw [if_pos names] at settles
            exact ⟨settles.1, iff_of_true settles.2 (by rintro ⟨⟩)⟩
        · next unnamed =>
            rw [if_neg unnamed] at settles
            exact leave settles
      · have noLetter : Byte.isCapital (Byte.fold raw) = false := by
          rw [← Bool.not_eq_true]
          intro letter
          exact ends (by rw [Byte.endsField, letter]; rfl)
        rw [Phase.nameEdit, noLetter, Bool.and_false, if_neg Bool.false_ne_true]
        exact leave (leaves_step_body raw inPhase ends)
  | filename =>
      rw [Phase.nameEdit, Byte.endsFilename_fold]
      split
      · next ends =>
          rw [step_of_endsFilename inPhase ends]
          exact leave (leaves_step_idle raw rfl)
      · next inside =>
          have name : Part.isName raw = true := by
            rw [Part.isName, Bool.not_eq_true']
            exact Bool.eq_false_iff.mpr inside
          rw [step_of_isName inPhase name]
          exact ⟨rfl, iff_of_true inPhase (by rintro ⟨⟩)⟩

end Receiver

/-! ## The rest of the record -/

namespace Command

/-- The record without its filename and its sum. -/
def unspelled (command : Command) : Command :=
  { command with filename := .empty, sum := 0 }

theorem unspelled_start (command : Command) (field : Field) :
    (command.start field).unspelled = command.unspelled.start field := by
  cases field <;> rfl

/-- What a field does to the rest of the record does not depend on filename and sum. -/
theorem unspelled_settle
    (command : Command) (scale : Scale) (field : Field) (value : Literal) :
    (command.settle scale field value).unspelled =
      (command.unspelled.settle scale field value).unspelled := by
  cases field with
  | g | m | axis _ | feed | s | p | lineNumber =>
      exact project_settle_eq unspelled rfl rfl (fun _ => rfl) rfl
  | checksum | unknown _ =>
      rfl

/-- The records agree on everything but filename and sum. -/
def SameUnspelled (_ : Option Field) (left right : Command) : Prop :=
  left.unspelled = right.unspelled

/-- Counting the number of a line does not depend on filename and sum. -/
theorem unspelled_advance (command : Command) :
    command.advance.unspelled = command.unspelled.advance := by
  have numbered :
      command.unspelled.seen.lineNumber = command.seen.lineNumber :=
    rfl
  rw [advance, advance, numbered]
  split
  · rfl
  · rfl

theorem keptInTandem_unspelled : KeptInTandem SameUnspelled where
  start field same := by
    rw [SameUnspelled, unspelled_start, unspelled_start]
    exact congrArg (start · field) same
  settle := by
    intro left right field scale value same
    calc
      (left.settle scale field value).unspelled =
          (left.unspelled.settle scale field value).unspelled :=
        unspelled_settle left scale field value
      _ = (right.unspelled.settle scale field value).unspelled :=
        congrArg (fun record => (record.settle scale field value).unspelled) same
      _ = (right.settle scale field value).unspelled :=
        (unspelled_settle right scale field value).symm
  clearName same := same
  pushName _ same := same

/--
The records of two spellings of a line agree on the fields seen, the codes, the
target, the parameters, the line number, the received checksum, the malformed
flag and the settings: on everything but the filename, the sum and the awaited
number.  The filenames are the pieces of their own spellings at the same place;
they are the same when folded, and both lost a byte or none did.
-/
structure SameButCase (line other : List UInt8) (left right : Command) : Prop where
  rest :
    { right with
        filename := left.filename
        sum := left.sum
        expected := left.expected } = left
  pieces : ∃ start count,
    left.filename.bytes = (line.drop start).take count ∧
      right.filename.bytes = (other.drop start).take count
  folded :
    left.filename.bytes.map Byte.fold = right.filename.bytes.map Byte.fold
  truncated : left.filename.truncated = right.filename.truncated

/-- The next line starts alike, without a filename. -/
theorem SameButCase.nextLine
    {line other : List UInt8} {left right : Command}
    (same : left.SameButCase line other right) :
    left.nextLine.SameButCase line other right.nextLine where
  rest := congrArg Command.nextLine same.rest
  pieces := by
    refine ⟨0, 0, ?_, ?_⟩
    · exact left.filename.bytes_clear
    · exact right.filename.bytes_clear
  folded := by
    have bytes (command : Command) : command.nextLine.filename.bytes = [] :=
      command.filename.bytes_clear
    rw [bytes, bytes]
  truncated := rfl

end Command

/-! ## Two spellings side by side -/

namespace Receiver

/-- Two receivers that have read two spellings of the same bytes since a line started. -/
structure Respells (line other : List UInt8) (left right : Receiver) : Prop where
  tandem : left.Tandem Command.SameUnspelled right
  spells : line.map Byte.fold = other.map Byte.fold
  /-- Both filenames stand at the same place, up to which they are read. -/
  named : ∃ start count,
    left.command.filename.Copies line start count ∧
      right.command.filename.Copies other start count ∧
      (left.phase = .filename → start + count = line.length)

/-- At the start of a line nothing is spelled. -/
theorem Respells.of_atLineStart
    {receiver : Receiver} (start : receiver.AtLineStart) :
    Respells [] [] receiver receiver where
  tandem := ⟨rfl, rfl, rfl⟩
  spells := rfl
  named := by
    obtain ⟨_, _, _, _, _, _, bytes, whole⟩ := start.2
    refine ⟨0, 0, .of_empty bytes whole, .of_empty bytes whole, ?_⟩
    exact fun _ => rfl

/-- The raw byte matters to the filename alone. -/
theorem tandem_read (receiver : Receiver) (raw other byte : UInt8) :
    (receiver.read raw byte).Tandem Command.SameUnspelled
      (receiver.read other byte) := by
  rw [read, read]
  split
  · exact ⟨rfl, rfl, rfl⟩
  · exact ⟨rfl, rfl, rfl⟩
  · exact ⟨rfl, rfl, rfl⟩
  · exact ⟨rfl, rfl, rfl⟩
  · split
    · exact ⟨rfl, rfl, rfl⟩
    · exact ⟨rfl, rfl, rfl⟩

namespace Respells

variable {line other : List UInt8} {left right : Receiver}

/-- One more byte in two spellings. -/
theorem step
    (respells : Respells line other left right) {raw otherRaw : UInt8}
    (same : Byte.fold raw = Byte.fold otherRaw) :
    Respells (line ++ [raw]) (other ++ [otherRaw]) (left.step raw)
      (right.step otherRaw) where
  tandem := by
    -- between the two stands the right receiver with the byte of the left spelling
    have first := respells.tandem.step Command.keptInTandem_unspelled raw
    have second :=
      tandem_read (right.settle (Byte.fold raw)) raw otherRaw (Byte.fold raw)
    have split :
        right.step otherRaw =
          (right.settle (Byte.fold raw)).read otherRaw (Byte.fold raw) := by
      rw [Receiver.step, same]
    rw [split]
    exact
      ⟨first.scale.trans second.scale, first.phase.trans second.phase,
        Eq.trans (b := (right.step raw).command.unspelled)
          first.command second.command⟩
  spells := by
    rw [List.map_append, List.map_append, respells.spells, List.map_singleton,
      List.map_singleton, same]
  named := by
    obtain ⟨start, count, ours, theirs, reaches⟩ := respells.named
    have lengths : line.length = other.length := by
      simpa using congrArg List.length respells.spells
    obtain ⟨name, naming⟩ := left.edits_step raw
    obtain ⟨otherName, _⟩ := right.edits_step otherRaw
    rw [← respells.tandem.phase, ← same] at otherName
    rw [name, otherName, naming]
    cases edit : left.phase.nameEdit (Byte.fold raw) with
    | restart =>
        refine ⟨line.length, 1, .restart _ line raw, ?_, fun _ => ?_⟩
        · rw [lengths]
          exact .restart _ other otherRaw
        · rw [List.length_append, List.length_singleton]
    | extend =>
        have reached := reaches (Phase.eq_filename_of_extend edit)
        refine
          ⟨start, count + 1, ours.push reached raw,
            theirs.push (reached.trans lengths) otherRaw, fun _ => ?_⟩
        rw [List.length_append, List.length_singleton]
        omega
    | leave =>
        exact
          ⟨start, count, ours.append [raw], theirs.append [otherRaw],
            fun edits => absurd rfl edits⟩

/-- The sum is no part of what the receivers have in common. -/
theorem withSum
    (respells : Respells line other left right) (sum otherSum : UInt8) :
    Respells line other (left.withSum sum) (right.withSum otherSum) where
  tandem :=
    ⟨respells.tandem.scale, respells.tandem.phase, respells.tandem.command⟩
  spells := respells.spells
  named := respells.named

theorem absorbAll
    (respells : Respells line other left right) {rest otherRest : List UInt8}
    (same : rest.map Byte.fold = otherRest.map Byte.fold) :
    Respells (line ++ rest) (other ++ otherRest) (left.absorbAll rest)
      (right.absorbAll otherRest) := by
  induction rest generalizing line other left right otherRest with
  | nil =>
      rw [List.map_nil, eq_comm, List.map_eq_nil_iff] at same
      rw [same, List.append_nil, List.append_nil]
      exact respells
  | cons raw rest ih =>
      cases otherRest with
      | nil =>
          cases same
      | cons otherRaw otherRest =>
          rw [List.map_cons, List.map_cons, List.cons.injEq] at same
          have absorbed :
              Respells (line ++ [raw]) (other ++ [otherRaw]) (left.absorb raw)
                (right.absorb otherRaw) := by
            rw [absorb_eq, absorb_eq]
            exact (respells.step same.1).withSum _ _
          have later := ih absorbed same.2
          rw [List.append_assoc, List.append_assoc] at later
          exact later

/-- Filename and sum aside, the records are the same. -/
theorem unspelled
    (respells : Respells line other left right) :
    left.command.unspelled = right.command.unspelled :=
  respells.tandem.command

/-- Records with these filenames, and otherwise alike, are the same but for the case of letters. -/
theorem sameButCase
    (respells : Respells line other left right) {record otherRecord : Command}
    (rest :
      { otherRecord with
          filename := record.filename
          sum := record.sum
          expected := record.expected } = record)
    (name : record.filename = left.command.filename)
    (otherName : otherRecord.filename = right.command.filename) :
    record.SameButCase line other otherRecord := by
  obtain ⟨start, count, ours, theirs, _⟩ := respells.named
  rw [← name] at ours
  rw [← otherName] at theirs
  constructor
  case rest =>
    exact rest
  case pieces =>
    refine ⟨start, min lineCapacity count, ?_, ?_⟩
    · rw [ours.bytes, List.take_take]
    · rw [theirs.bytes, List.take_take]
  case folded =>
    rw [ours.bytes, theirs.bytes, List.map_take, List.map_take, List.map_drop,
      respells.spells, List.map_take, List.map_take, List.map_drop]
  case truncated =>
    rw [ours.truncated, theirs.truncated]

/-- Inside a line the records are the same but for the case of letters. -/
theorem command
    (respells : Respells line other left right) :
    left.command.SameButCase line other right.command := by
  apply respells.sameButCase _ rfl rfl
  exact
    congrArg
      (fun record : Command =>
        { record with
          filename := left.command.filename
          sum := left.command.sum
          expected := left.command.expected })
      respells.unspelled.symm

/-- So they are when the line is handed over. -/
theorem delivered
    (respells : Respells line other left right) :
    left.delivered.SameButCase line other right.delivered := by
  have name (receiver : Receiver) :
      receiver.delivered.filename = receiver.command.filename :=
    project_delivered (·.filename) (fun _ _ => rfl) receiver
  apply respells.sameButCase _ (name left) (name right)
  let project (record : Command) : Command :=
    { record with
      filename := left.delivered.filename
      sum := left.delivered.sum
      expected := left.delivered.expected }
  calc
    project right.delivered = project right.command.unspelled :=
      project_delivered project (fun _ _ => rfl) right
    _ = project left.command.unspelled :=
      congrArg project respells.unspelled.symm
    _ = project left.delivered :=
      (project_delivered project (fun _ _ => rfl) left).symm

/-- If their sums are equal as well, both lines are judged alike, and counted alike. -/
theorem judged
    (respells : Respells line other left right)
    (policy : left.policy = right.policy)
    (sum : left.command.sum = right.command.sum) :
    left.verdict = right.verdict ∧
      left.delivered.expected = right.delivered.expected := by
  have record :
      { right.command with filename := left.command.filename } =
        left.command := by
    have rest := respells.command.rest
    have awaited : left.command.expected = right.command.expected :=
      congrArg (·.expected) respells.unspelled
    rw [sum, awaited] at rest
    exact rest
  have verdict : left.verdict = right.verdict := by
    rw [verdict, verdict, policy, ← record]
    rfl
  refine ⟨verdict, ?_⟩
  rw [Receiver.delivered, Receiver.delivered, verdict]
  have counted :
      left.command.advance.unspelled = right.command.advance.unspelled := by
    rw [Command.unspelled_advance, Command.unspelled_advance]
    exact congrArg Command.advance respells.unspelled
  split
  · exact congrArg (·.expected) counted
  · exact congrArg (·.expected) respells.unspelled

end Respells

/--
The case of letters does not matter outside filenames and sums.  Two spellings
of a line, pushed from the same start of a line, leave records behind that are
the same but for the case of letters: after every byte of the line, when the
terminator hands them over, and after it, if the listener leaves them as they
are.  If the sums that were computed are the same as well, so is the verdict,
and with it the awaited number.
-/
theorem deliveries_respelled
    (listener : Verdict → Command → Command)
    {receiver : Receiver} (start : receiver.AtLineStart)
    {line other : List UInt8} (plain : Byte.Unterminated line)
    (spells : line.map Byte.fold = other.map Byte.fold)
    {terminator : UInt8} (ends : Byte.isTerminator terminator = true) :
    (∀ count,
        (receiver.pushAll listener (line.take count)).command.SameButCase
          (line.take count) (other.take count)
          (receiver.pushAll listener (other.take count)).command) ∧
      (receiver.pushAll keep (line ++ [terminator])).command.SameButCase
          (line ++ [terminator]) (other ++ [terminator])
          (receiver.pushAll keep (other ++ [terminator])).command ∧
        ∃ verdict record verdict' record',
          receiver.deliveries listener (line ++ [terminator]) =
              [(verdict, record)] ∧
            receiver.deliveries listener (other ++ [terminator]) =
              [(verdict', record')] ∧
            record.SameButCase (line ++ [terminator]) (other ++ [terminator])
              record' ∧
            (record.sum = record'.sum →
              verdict = verdict' ∧ record.expected = record'.expected) := by
  have otherPlain := Byte.unterminated_of_map_fold plain spells
  have fresh := Respells.of_atLineStart start
  have ended :
      (line ++ [terminator]).map Byte.fold =
        (other ++ [terminator]).map Byte.fold := by
    rw [List.map_append, List.map_append, spells]
  have completed :
      Respells (line ++ [terminator]) (other ++ [terminator])
        (receiver.complete line terminator)
        (receiver.complete other terminator) :=
    fresh.absorbAll ended
  refine ⟨?_, ?_, ?_⟩
  · intro count
    have front : Byte.Unterminated (line.take count) :=
      fun byte member => plain byte (List.mem_of_mem_take member)
    have otherFront : Byte.Unterminated (other.take count) :=
      fun byte member => otherPlain byte (List.mem_of_mem_take member)
    have same :
        (line.take count).map Byte.fold = (other.take count).map Byte.fold := by
      rw [List.map_take, List.map_take, spells]
    rw [pushAll_of_unterminated listener receiver front,
      pushAll_of_unterminated listener receiver otherFront]
    exact (fresh.absorbAll same).command
  · rw [pushAll_line keep receiver plain ends,
      pushAll_line keep receiver otherPlain ends]
    exact completed.delivered.nextLine
  · refine
      ⟨_, _, _, _, deliveries_line listener receiver plain ends,
        deliveries_line listener receiver otherPlain ends,
        completed.delivered, ?_⟩
    intro sum
    rw [sum_delivered, sum_delivered] at sum
    apply completed.judged _ sum
    rw [policy_complete, policy_complete]

/--
The lines `m28 Ab` and `M28 ab` spell two letters in different ways, which does
not change the sum.  Each of them names the file in its own way.
-/
theorem deliveries_respelled_filename :
    let receiver := Receiver.new .lenient .zero
    let line : List UInt8 := [109, 50, 56, 32, 65, 98, 10]
    let other : List UInt8 := [77, 50, 56, 32, 97, 98, 10]
    line.map Byte.fold = other.map Byte.fold ∧
      ∃ verdict record verdict' record',
        receiver.deliveries keep line = [(verdict, record)] ∧
          receiver.deliveries keep other = [(verdict', record')] ∧
          record.SameButCase line other record' ∧
          record.filename.bytes = [65, 98] ∧
          record'.filename.bytes = [97, 98] ∧
          record.sum = record'.sum ∧ verdict = verdict' := by
  intro receiver line other
  have spells :
      ([109, 50, 56, 32, 65, 98] : List UInt8).map Byte.fold =
        ([77, 50, 56, 32, 97, 98] : List UInt8).map Byte.fold := by
    decide
  obtain
    ⟨_, _, verdict, record, verdict', record', first, second, same, judged⟩ :=
    deliveries_respelled keep (atLineStart_new .lenient .zero) (by decide)
      spells Byte.isTerminator_lineFeed
  have handed :
      (receiver.deliveries keep line).map
          (fun line => (line.2.filename.bytes, line.2.sum)) =
        [([65, 98], 110)] := by
    decide
  have handedOther :
      (receiver.deliveries keep other).map
          (fun line => (line.2.filename.bytes, line.2.sum)) =
        [([97, 98], 110)] := by
    decide
  have first : receiver.deliveries keep line = [(verdict, record)] := first
  have second : receiver.deliveries keep other = [(verdict', record')] := second
  rw [first, List.map_singleton, List.singleton_inj, Prod.mk.injEq] at handed
  rw [second, List.map_singleton, List.singleton_inj, Prod.mk.injEq]
    at handedOther
  have sums : record.sum = record'.sum := handed.2.trans handedOther.2.symm
  exact
    ⟨by decide, verdict, record, verdict', record', first, second, same,
      handed.1, handedOther.1, sums, (judged sums).1⟩

end Receiver

end GcodeLink
