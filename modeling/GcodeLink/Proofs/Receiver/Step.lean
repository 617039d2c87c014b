import GcodeLink.Part
import GcodeLink.Proofs.Byte
import GcodeLink.Receiver.Basic

/-!
# One byte at a time

A byte acts on a receiver in two independent ways: it steps the phase and the
fields, and it may enter the sum.  This module separates the two.  Stepping is
described phase by phase, once for each class of bytes, so that no later proof
opens it; the sum is a frame around it, and only the mark of the checksum
field decides whether a byte enters.
-/

namespace GcodeLink

/-! ## Settling a field in the record -/

/-- The field names a file when it is an `M` that opens or creates one. -/
def Field.namesFile (field : Field) (value : Literal) : Bool :=
  match field, (value.fit .one : Except Fault UInt16) with
  | .m, .ok code => takesFilename code
  | _, _ => false

theorem Field.namesFile_of_ne_m
    {field : Field} (other : field ≠ .m) (value : Literal) :
    field.namesFile value = false := by
  cases field with
  | m =>
      exact absurd rfl other
  | g | axis _ | feed | s | p | lineNumber | checksum | unknown _ =>
      rfl

theorem Part.takesName_eq (opener : UInt8) (body : List UInt8) :
    Part.takesName opener body =
      Field.namesFile (.ofByte (Byte.fold opener)) (Part.literal body) :=
  rfl

namespace Command

/-- The record after a field took effect: its literal is stored, or the field is dropped. -/
def settle (command : Command) (scale : Scale) (field : Field) (value : Literal) :
    Command :=
  match command.store scale field value with
  | .ok stored => stored
  | .error _ => command.drop field

theorem settle_of_ok
    {command stored : Command} {scale : Scale} {field : Field} {value : Literal}
    (success : command.store scale field value = .ok stored) :
    command.settle scale field value = stored := by
  rw [settle, success]

theorem settle_of_error
    {command : Command} {scale : Scale} {field : Field} {value : Literal}
    {fault : Fault}
    (failure : command.store scale field value = .error fault) :
    command.settle scale field value = command.drop field := by
  rw [settle, failure]

/--
What a field leaves alone.  Every numeric field is stored by putting its number
into one slot, so it is enough to look at that slot and at the mark.
-/
theorem project_settle
    {α width : Type} (project : Command → α) {kept : α}
    {command : Command} {scale : Scale} {field : Field} {value : Literal}
    {result : Except Fault width} {put : width → Command}
    (stores : command.store scale field value = result.map put)
    (stored : ∀ number, project (put number) = kept)
    (dropped : project (command.drop field) = kept) :
    project (command.settle scale field value) = kept := by
  cases result with
  | ok number =>
      rw [settle_of_ok stores]
      exact stored number
  | error fault =>
      rw [settle_of_error stores]
      exact dropped

/--
What a field does in two records, seen through a projection: it is the same if
it is the same for every number that may be stored, and for a field that is
dropped.
-/
theorem project_settle_eq
    {α width : Type} (project : Command → α) {left right : Command}
    {scale : Scale} {field : Field} {value : Literal}
    {result : Except Fault width} {put other : width → Command}
    (stores : left.store scale field value = result.map put)
    (storesOther : right.store scale field value = result.map other)
    (stored : ∀ number, project (put number) = project (other number))
    (dropped : project (left.drop field) = project (right.drop field)) :
    project (left.settle scale field value) =
      project (right.settle scale field value) := by
  cases result with
  | ok number =>
      rw [settle_of_ok stores, settle_of_ok storesOther]
      exact stored number
  | error fault =>
      rw [settle_of_error stores, settle_of_error storesOther]
      exact dropped

/-- Taking in a field is starting and settling it. -/
theorem take_field
    (scale : Scale) (command : Command) (opener : UInt8) (body : List UInt8) :
    command.take scale (.field opener body) =
      (command.start (.ofByte (Byte.fold opener))).settle scale
        (.ofByte (Byte.fold opener)) (Part.literal body) :=
  rfl

/-! ## The sum as a frame -/

/-- The record with another sum. -/
def withSum (command : Command) (sum : UInt8) : Command :=
  { command with sum }

theorem start_withSum (command : Command) (sum : UInt8) (field : Field) :
    (command.withSum sum).start field = (command.start field).withSum sum := by
  cases field <;> rfl

private theorem map_withSum
    {width : Type} (result : Except Fault width) (put : width → Command)
    (sum : UInt8) :
    result.map (fun number => (put number).withSum sum) =
      (result.map put).map (·.withSum sum) := by
  cases result <;> rfl

theorem store_withSum
    (command : Command) (sum : UInt8) (scale : Scale) (field : Field)
    (value : Literal) :
    (command.withSum sum).store scale field value =
      (command.store scale field value).map (·.withSum sum) := by
  cases field with
  | g | m | axis _ | feed | s | p | lineNumber =>
      refine Eq.trans ?_ (map_withSum _ _ _)
      rfl
  | checksum | unknown _ =>
      rfl

theorem settle_withSum
    (command : Command) (sum : UInt8) (scale : Scale) (field : Field)
    (value : Literal) :
    (command.withSum sum).settle scale field value =
      (command.settle scale field value).withSum sum := by
  rw [settle, settle, store_withSum]
  cases command.store scale field value with
  | ok stored => rfl
  | error fault => rfl

end Command

namespace Receiver

/-! ## Stepping, phase by phase -/

/-- Let bytes take effect in order. -/
def stepAll (receiver : Receiver) (bytes : List UInt8) : Receiver :=
  bytes.foldl step receiver

@[simp]
theorem stepAll_nil (receiver : Receiver) : receiver.stepAll [] = receiver :=
  rfl

@[simp]
theorem stepAll_cons (receiver : Receiver) (byte : UInt8) (rest : List UInt8) :
    receiver.stepAll (byte :: rest) = (receiver.step byte).stepAll rest :=
  rfl

@[simp]
theorem stepAll_append (receiver : Receiver) (front rest : List UInt8) :
    receiver.stepAll (front ++ rest) = (receiver.stepAll front).stepAll rest := by
  rw [stepAll, List.foldl_append]
  rfl

/-- Reading while nothing is open does not depend on the phase left behind. -/
theorem readIdle_phase (receiver : Receiver) (phase : Phase) (byte : UInt8) :
    { receiver with phase }.readIdle byte = receiver.readIdle byte := by
  simp only [readIdle, openField]

theorem readIdle_of_isTerminator
    (receiver : Receiver) {byte : UInt8} (ends : Byte.isTerminator byte = true) :
    receiver.readIdle byte = { receiver with phase := .idle } := by
  have marks := Byte.ne_of_isTerminator ends
  rw [readIdle, Byte.opensField_of_isTerminator ends]
  simp [marks.1, marks.2.1]

theorem phase_openField (receiver : Receiver) (field : Field) :
    (receiver.openField field).phase = .field field .zero :=
  rfl

theorem step_idle
    {receiver : Receiver} (idle : receiver.phase = .idle) (raw : UInt8) :
    receiver.step raw = receiver.readIdle (Byte.fold raw) := by
  simp [step, settle, read, idle]

/-- An open field settles at the byte that closes it. -/
theorem settleField_eq
    (receiver : Receiver) (field : Field) (value : Literal) (byte : UInt8) :
    receiver.settleField field value byte =
      if field.namesFile value && Byte.isCapital byte then
        { receiver with
          phase := .filename
          command :=
            { receiver.command.settle receiver.scale field value with
              filename :=
                (receiver.command.settle receiver.scale field value).filename.clear } }
      else
        { receiver with
          phase := .idle
          command := receiver.command.settle receiver.scale field value } := by
  by_cases isM : field = .m
  · subst isM
    have ratio : receiver.command.ratio receiver.scale .m = .one := rfl
    cases fits : (value.fit .one : Except Fault UInt16) with
    | ok code =>
        simp only [settleField, Command.settle, Command.store, ratio, fits,
          Except.map, opensFilename, Command.namesFile, Field.namesFile,
          decide_true, Bool.true_and]
    | error fault =>
        simp only [settleField, Command.settle, Command.store, ratio, fits,
          Except.map, Field.namesFile, Bool.false_and, Bool.false_eq_true,
          if_false]
  · rw [Field.namesFile_of_ne_m isM, Bool.false_and,
      if_neg Bool.false_ne_true, settleField, Command.settle]
    cases receiver.command.store receiver.scale field value with
    | ok stored => simp [opensFilename, isM]
    | error fault => rfl

/-- The byte that closes a field is read as if the field had settled before it. -/
theorem step_of_endsField
    {receiver : Receiver} {field : Field} {value : Literal} {raw : UInt8}
    (inField : receiver.phase = .field field value)
    (ends : Byte.endsField (Byte.fold raw) = true) :
    receiver.step raw =
      (receiver.settleField field value (Byte.fold raw)).step raw := by
  have settled :
      receiver.settle (Byte.fold raw) =
        receiver.settleField field value (Byte.fold raw) := by
    simp [settle, inField, ends]
  have stable :
      (receiver.settleField field value (Byte.fold raw)).settle (Byte.fold raw) =
        receiver.settleField field value (Byte.fold raw) := by
    rw [settleField_eq]
    split <;> rfl
  rw [step, settled, step, stable]

/-- Any other byte is read into the literal of the open field. -/
theorem step_of_isBody
    {receiver : Receiver} {field : Field} {value : Literal} {raw : UInt8}
    (inField : receiver.phase = .field field value)
    (body : Part.isBody raw = true) :
    receiver.step raw = { receiver with phase := .field field (value.push raw) } := by
  have inside : Byte.endsField (Byte.fold raw) = false := by
    simpa [Part.isBody] using body
  have folded := Byte.fold_of_not_endsField inside
  rw [folded] at inside
  simp [step, settle, read, inField, folded, inside]

/-- The byte that ends a filename is read as if nothing were open. -/
theorem step_of_endsFilename
    {receiver : Receiver} {raw : UInt8}
    (inName : receiver.phase = .filename)
    (ends : Byte.endsFilename raw = true) :
    receiver.step raw = { receiver with phase := .idle }.step raw := by
  rw [step_idle (rfl : ({ receiver with phase := .idle } : Receiver).phase = .idle),
    readIdle_phase]
  simp [step, settle, read, inName, ends]

/-- Any other byte is appended to the filename as it is. -/
theorem step_of_isName
    {receiver : Receiver} {raw : UInt8}
    (inName : receiver.phase = .filename)
    (name : Part.isName raw = true) :
    receiver.step raw =
      { receiver with
        command :=
          { receiver.command with filename := receiver.command.filename.push raw } } := by
  have inside : Byte.endsFilename raw = false := by
    simpa [Part.isName] using name
  simp [step, settle, read, inName, inside]

/-- A comment up to the end of the line swallows every byte. -/
theorem step_semicolon
    {receiver : Receiver} (inComment : receiver.phase = .comment .semicolon)
    (raw : UInt8) :
    receiver.step raw = receiver := by
  simp [step, settle, read, inComment]

/-- A comment between parentheses swallows every byte before the closing one. -/
theorem step_of_isInside
    {receiver : Receiver} {raw : UInt8}
    (inComment : receiver.phase = .comment .parens)
    (inside : Part.isInside raw = true) :
    receiver.step raw = receiver := by
  have other : raw ≠ Byte.closeParen := by
    simpa [Part.isInside] using inside
  simp [step, settle, read, inComment, other]

theorem step_closeParen
    {receiver : Receiver} (inComment : receiver.phase = .comment .parens) :
    receiver.step Byte.closeParen = { receiver with phase := .idle } := by
  have folded : Byte.fold Byte.closeParen = Byte.closeParen := by
    simp
  simp [step, settle, read, inComment, folded]

/--
The receiver at the end of a line, which settles an open field and ends a
filename.  A comment stays open until the next line starts.
-/
def atTerminator (receiver : Receiver) : Receiver :=
  match receiver.phase with
  | .field field value =>
      { receiver with
        phase := .idle
        command := receiver.command.settle receiver.scale field value }
  | .comment _ => receiver
  | .idle | .filename => { receiver with phase := .idle }

/-- Either terminator ends a line in the same way. -/
theorem step_of_isTerminator
    (receiver : Receiver) {terminator : UInt8}
    (ends : Byte.isTerminator terminator = true) :
    receiver.step terminator = receiver.atTerminator := by
  have folded := Byte.fold_of_isTerminator ends
  have idle (idling : Receiver) (inPhase : idling.phase = .idle) :
      idling.step terminator = { idling with phase := .idle } := by
    rw [step_idle inPhase, folded, readIdle_of_isTerminator idling ends]
  cases inPhase : receiver.phase with
  | idle =>
      rw [idle receiver inPhase, atTerminator, inPhase]
  | field field value =>
      have closes : Byte.endsField (Byte.fold terminator) = true := by
        rw [folded]
        exact Byte.endsField_of_isTerminator ends
      have noLetter : Byte.isCapital (Byte.fold terminator) = false := by
        rw [folded]
        exact Byte.isCapital_of_isTerminator ends
      rw [step_of_endsField inPhase closes, settleField_eq, noLetter,
        Bool.and_false, if_neg Bool.false_ne_true, idle _ rfl, atTerminator,
        inPhase]
  | comment comment =>
      rw [atTerminator, inPhase]
      cases comment with
      | semicolon =>
          exact step_semicolon inPhase terminator
      | parens =>
          apply step_of_isInside inPhase
          rcases Byte.isTerminator_iff.mp ends with rfl | rfl <;> rfl
  | filename =>
      rw [step_of_endsFilename inPhase
        (Byte.endsFilename_of_isTerminator ends), idle _ rfl, atTerminator,
        inPhase]

/-! ## Stepping through a run of bytes -/

theorem stepAll_body
    {receiver : Receiver} {field : Field} {value : Literal} {body : List UInt8}
    (inField : receiver.phase = .field field value)
    (all : ∀ byte ∈ body, Part.isBody byte = true) :
    receiver.stepAll body =
      { receiver with phase := .field field (value.pushAll body) } := by
  induction body generalizing receiver value with
  | nil =>
      simp [← inField]
  | cons byte rest ih =>
      rw [List.forall_mem_cons] at all
      rw [stepAll_cons, step_of_isBody inField all.1]
      exact ih rfl all.2

theorem stepAll_name
    {receiver : Receiver} {name : List UInt8}
    (inName : receiver.phase = .filename)
    (all : ∀ byte ∈ name, Part.isName byte = true) :
    receiver.stepAll name =
      { receiver with
        command :=
          { receiver.command with
            filename := receiver.command.filename.pushAll name } } := by
  induction name generalizing receiver with
  | nil =>
      rfl
  | cons byte rest ih =>
      rw [List.forall_mem_cons] at all
      rw [stepAll_cons, step_of_isName inName all.1]
      exact ih inName all.2

theorem stepAll_semicolon
    {receiver : Receiver} (inComment : receiver.phase = .comment .semicolon)
    (bytes : List UInt8) :
    receiver.stepAll bytes = receiver := by
  induction bytes with
  | nil =>
      rfl
  | cons byte rest ih =>
      rw [stepAll_cons, step_semicolon inComment, ih]

theorem stepAll_inside
    {receiver : Receiver} {bytes : List UInt8}
    (inComment : receiver.phase = .comment .parens)
    (all : ∀ byte ∈ bytes, Part.isInside byte = true) :
    receiver.stepAll bytes = receiver := by
  induction bytes with
  | nil =>
      rfl
  | cons byte rest ih =>
      rw [List.forall_mem_cons] at all
      rw [stepAll_cons, step_of_isInside inComment all.1, ih all.2]

end Receiver

end GcodeLink
