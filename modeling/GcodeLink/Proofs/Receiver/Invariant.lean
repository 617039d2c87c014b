import GcodeLink.Proofs.Command.Slots
import GcodeLink.Proofs.Filename
import GcodeLink.Proofs.Receiver.Receptions

/-!
# What holds after every byte

A mark is set when the letter of its field arrives and is taken back when the
number of the field turns out not to fit, which may be many bytes later.  In
between, a `G` and an `M` evict each other, and a filename begins in the middle
of settling a field.  Through all this the record stays coherent: it never shows
two codes, it shows none only if the line is malformed, and it holds a checksum
only if it shows the mark of one.

That the mark of the open field is set, and that a filename is read after an `M`
that names a file, are not visible in the record alone.  They are part of what
is kept by every byte, because the rest does not go through without them.
-/

namespace GcodeLink

namespace Command

/-! ## The record -/

/-- The record is one that some line, or the beginning of one, can leave behind. -/
structure Coherent (command : Command) : Prop where
  exclusive : ¬ (command.seen.g = true ∧ command.seen.m = true)
  g_of_m : command.seen.m = true → command.g = 0
  m_of_g : command.seen.g = true → command.m = 0
  malformed :
    command.seen.g = false → command.seen.m = false →
      command.malformed = true
  received : command.seen.checksum = false → command.received = none
  length_le : command.filename.bytes.length ≤ 120
  truncated :
    command.filename.truncated = true → command.filename.bytes.length = 120

/-- The field leaves its mark, if it is one that leaves any. -/
def Marks (command : Command) (field : Field) : Prop :=
  (∀ letter, field ≠ .unknown letter) → command.seen.contains field = true

theorem marks_start (command : Command) (field : Field) :
    (command.start field).Marks field := by
  intro meaning
  cases field with
  | g | m | feed | s | p | lineNumber | checksum =>
      rfl
  | axis axis =>
      exact FieldSet.contains_put_self command.seen (.axis axis) true meaning
  | unknown letter =>
      exact absurd rfl (meaning letter)

namespace Coherent

variable {command : Command}

/-- A record that is not malformed shows exactly one code. -/
theorem oneCode (coherent : command.Coherent) (whole : command.malformed = false) :
    command.gCode?.isSome = !command.mCode?.isSome := by
  rw [gCode?, mCode?]
  cases g : command.seen.g with
  | true =>
      cases m : command.seen.m with
      | true => exact absurd ⟨g, m⟩ coherent.exclusive
      | false => rfl
  | false =>
      cases m : command.seen.m with
      | true => rfl
      | false =>
          rw [coherent.malformed g m] at whole
          cases whole

theorem of_isFresh (fresh : command.IsFresh) : command.Coherent := by
  obtain ⟨seen, g, m, sum, received, malformed, bytes, truncated⟩ := fresh
  constructor
  case exclusive => rw [seen]; decide
  case g_of_m => rw [seen]; nofun
  case m_of_g => exact fun _ => m
  case malformed => rw [seen]; nofun
  case received => exact fun _ => received
  case length_le => rw [bytes]; decide
  case truncated => rw [truncated]; nofun

/-- A letter evicts the other code, and with it the number of that code. -/
theorem start (coherent : command.Coherent) (field : Field) :
    (command.start field).Coherent := by
  cases field with
  | g =>
      exact
        { coherent with
          exclusive := nofun
          g_of_m := nofun
          m_of_g := fun _ => rfl
          malformed := nofun }
  | m =>
      exact
        { coherent with
          exclusive := nofun
          g_of_m := fun _ => rfl
          m_of_g := nofun
          malformed := nofun }
  | checksum =>
      exact { coherent with received := nofun }
  | axis _ | feed | s | p | lineNumber | unknown _ =>
      exact { coherent with }

/-- A line that loses a code is malformed from then on. -/
theorem drop
    (coherent : command.Coherent) {field : Field} (other : field ≠ .checksum) :
    (command.drop field).Coherent := by
  cases field with
  | g =>
      exact
        { coherent with
          exclusive := nofun
          m_of_g := nofun
          malformed := fun _ _ => rfl }
  | m =>
      exact
        { coherent with
          exclusive := nofun
          g_of_m := nofun
          malformed := fun _ _ => rfl }
  | checksum =>
      exact absurd rfl other
  | axis _ | feed | s | p | lineNumber | unknown _ =>
      exact { coherent with malformed := fun _ _ => rfl }

/-- The number of a code is stored only while the line still shows that code. -/
theorem settle
    (coherent : command.Coherent) {field : Field} (marks : command.Marks field)
    (scale : Scale) (value : Literal) :
    (command.settle scale field value).Coherent := by
  cases stores : command.store scale field value with
  | error fault =>
      rw [settle_of_error stores]
      apply coherent.drop
      rintro rfl
      cases stores
  | ok stored =>
      rw [settle_of_ok stores]
      cases stored_of_store stores with
      | g code =>
          exact
            { coherent with
              g_of_m := fun m =>
                absurd ⟨marks nofun, m⟩ coherent.exclusive }
      | m code =>
          exact
            { coherent with
              m_of_g := fun g =>
                absurd ⟨g, marks nofun⟩ coherent.exclusive }
      | checksum number =>
          exact
            { coherent with
              received := fun unmarked =>
                absurd (marks nofun) (Bool.eq_false_iff.mp unmarked) }
      | axis _ _ | feed _ | s _ | p _ | lineNumber _ | unknown _ =>
          exact { coherent with }

theorem clearName (coherent : command.Coherent) :
    ({ command with filename := command.filename.clear } : Command).Coherent :=
  { coherent with
    length_le := by
      rw [Filename.bytes_clear]
      decide
    truncated := nofun }

theorem pushName (coherent : command.Coherent) (byte : UInt8) :
    ({ command with filename := command.filename.push byte } :
      Command).Coherent :=
  { coherent with
    length_le := (command.filename.push byte).buffer.length_le
    truncated := by
      show (command.filename.push byte).truncated = true → _
      rw [Filename.truncated_push, Bool.or_eq_true, decide_eq_true_eq,
        Filename.bytes_push, List.length_take, List.length_append]
      rintro (before | full)
      · rw [coherent.truncated before]
        rfl
      · exact Nat.min_eq_left (Nat.le_add_right_of_le full) }

theorem withSum (coherent : command.Coherent) (sum : UInt8) :
    (command.withSum sum).Coherent :=
  { coherent with }

theorem advance (coherent : command.Coherent) : command.advance.Coherent := by
  rw [Command.advance]
  split
  · exact { coherent with }
  · exact coherent

end Coherent

end Command

namespace Receiver

/-! ## The record in its phase -/

/--
The record is coherent, the open field has left its mark, and a filename is read
only after an `M` that names a file.
-/
structure Coherent (receiver : Receiver) : Prop where
  command : receiver.command.Coherent
  opened : ∀ field, receiver.phase.open? = some field → receiver.command.Marks field
  naming :
    receiver.phase = .filename →
      receiver.command.seen.m = true ∧
        (receiver.command.m = 23 ∨ receiver.command.m = 28)

namespace Coherent

variable {receiver : Receiver}

/-- Nothing more is asked of a receiver that reads neither a field nor a filename. -/
theorem of_command
    (command : receiver.command.Coherent)
    (closed : receiver.phase.open? = none)
    (unnamed : receiver.phase ≠ .filename) :
    receiver.Coherent where
  command := command
  opened field opened := by
    rw [closed] at opened
    cases opened
  naming naming := absurd naming unnamed

theorem of_atLineStart (start : receiver.AtLineStart) : receiver.Coherent := by
  apply of_command (.of_isFresh start.2)
  · rw [start.1]
    rfl
  · rw [start.1]
    nofun

/-- The code that a filename follows is stored in the record. -/
theorem names_settle
    {command : Command} {scale : Scale} {field : Field} {value : Literal}
    (marks : command.Marks field) (names : field.namesFile value = true) :
    (command.settle scale field value).seen.m = true ∧
      ((command.settle scale field value).m = 23 ∨
        (command.settle scale field value).m = 28) := by
  cases field with
  | m =>
      have stores :
          command.store scale .m value =
            (value.fit .one).map fun m => { command with m } :=
        rfl
      cases fits : (value.fit .one : Except Fault UInt16) with
      | error fault =>
          simp only [Field.namesFile, fits, Bool.false_eq_true] at names
      | ok code =>
          simp only [Field.namesFile, fits, takesFilename, Bool.or_eq_true,
            beq_iff_eq] at names
          rw [fits] at stores
          rw [Command.settle_of_ok stores]
          exact ⟨marks (by rintro _ ⟨⟩), names⟩
  | g | axis _ | feed | s | p | lineNumber | checksum | unknown _ =>
      cases names

theorem settleField
    (coherent : receiver.Coherent) {field : Field} {value : Literal}
    (inField : receiver.phase = .field field value) (byte : UInt8) :
    (receiver.settleField field value byte).Coherent := by
  have marks : receiver.command.Marks field :=
    coherent.opened field (by rw [inField]; rfl)
  have settled := coherent.command.settle marks receiver.scale value
  rw [settleField_eq]
  split
  · next names =>
      rw [Bool.and_eq_true] at names
      exact
        { command := settled.clearName
          opened := nofun
          naming := fun _ => names_settle marks names.1 }
  · exact of_command settled rfl nofun

theorem settle (coherent : receiver.Coherent) (byte : UInt8) :
    (receiver.settle byte).Coherent := by
  rw [Receiver.settle]
  split
  · next inField =>
      split
      · exact coherent.settleField inField byte
      · exact coherent
  · exact coherent

theorem readIdle (coherent : receiver.Coherent) (byte : UInt8) :
    (receiver.readIdle byte).Coherent := by
  rw [Receiver.readIdle]
  split_ifs
  · exact
      { command := coherent.command.start _
        opened := by
          intro field opened
          rw [phase_openField] at opened
          cases opened
          exact Command.marks_start _ _
        naming := by rintro ⟨⟩ }
  · exact of_command coherent.command rfl (by rintro ⟨⟩)
  · exact of_command coherent.command rfl (by rintro ⟨⟩)
  · exact of_command coherent.command rfl (by rintro ⟨⟩)

theorem read (coherent : receiver.Coherent) (raw byte : UInt8) :
    (receiver.read raw byte).Coherent := by
  rw [Receiver.read]
  split
  · exact coherent.readIdle byte
  · next inField =>
      exact
        { command := coherent.command
          opened := fun field opened =>
            coherent.opened field (by rw [inField]; exact opened)
          naming := by rintro ⟨⟩ }
  · exact coherent
  · split
    · exact of_command coherent.command rfl (by rintro ⟨⟩)
    · exact coherent
  · next inName =>
      split
      · exact coherent.readIdle byte
      · exact
          { command := coherent.command.pushName raw
            opened := coherent.opened
            naming := coherent.naming }

/-- One byte keeps a receiver coherent. -/
theorem step (coherent : receiver.Coherent) (raw : UInt8) :
    (receiver.step raw).Coherent :=
  (coherent.settle (Byte.fold raw)).read raw (Byte.fold raw)

theorem absorb (coherent : receiver.Coherent) (raw : UInt8) :
    (receiver.absorb raw).Coherent := by
  rw [absorb_eq]
  exact
    { command := (coherent.step raw).command.withSum _
      opened := (coherent.step raw).opened
      naming := (coherent.step raw).naming }

/-- The record of a line is handed over coherent. -/
theorem delivered (coherent : receiver.Coherent) : receiver.delivered.Coherent := by
  rw [Receiver.delivered]
  split
  · exact coherent.command.advance
  · exact coherent.command

/-- The end of a line makes a receiver coherent whatever the listener gives back. -/
theorem push
    (coherent : receiver.Coherent) (listener : Verdict → Command → Command)
    (raw : UInt8) :
    (receiver.push listener raw).Coherent := by
  rw [Receiver.push]
  split
  · exact of_atLineStart (atLineStart_nextLine _ _)
  · exact coherent.absorb raw

end Coherent

/-! ## The register -/

/-- The register of literals when a folded byte may settle the open field. -/
def settleRegister (receiver : Receiver) (register : Literal) (byte : UInt8) :
    Literal :=
  match receiver.phase with
  | .field _ _ => if Byte.endsField byte then .zero else register
  | _ => register

/-- The register of literals when a folded byte may open a field. -/
def idleRegister (register : Literal) (byte : UInt8) : Literal :=
  if Byte.opensField byte then .zero else register

/-- The register of literals when a folded byte is read in the current phase. -/
def readRegister (receiver : Receiver) (register : Literal) (byte : UInt8) :
    Literal :=
  match receiver.phase with
  | .idle => idleRegister register byte
  | .field _ _ => register.push byte
  | .comment _ => register
  | .filename =>
      if Byte.endsFilename byte then idleRegister register byte else register

/--
The one register in which all literals are accumulated, after one more byte.  It
is cleared by a field that opens and by a field that settles, and by no other
byte.
-/
def registerAfter (receiver : Receiver) (register : Literal) (raw : UInt8) :
    Literal :=
  (receiver.settle (Byte.fold raw)).readRegister
    (receiver.settleRegister register (Byte.fold raw)) (Byte.fold raw)

theorem settleRegister_eq (receiver : Receiver) (byte : UInt8) :
    receiver.settleRegister receiver.phase.accumulator byte =
      (receiver.settle byte).phase.accumulator := by
  cases inPhase : receiver.phase with
  | field field value =>
      simp only [settleRegister, settle, inPhase]
      split
      · rw [settleField_eq]
        split <;> rfl
      · rw [inPhase]
  | idle | comment _ | filename =>
      simp only [settleRegister, settle, inPhase]

theorem idleRegister_eq (receiver : Receiver) (byte : UInt8) :
    idleRegister .zero byte = (receiver.readIdle byte).phase.accumulator := by
  rw [idleRegister, readIdle]
  split_ifs <;> rfl

theorem readRegister_eq (receiver : Receiver) (raw byte : UInt8) :
    receiver.readRegister receiver.phase.accumulator byte =
      (receiver.read raw byte).phase.accumulator := by
  cases inPhase : receiver.phase with
  | idle =>
      simp only [readRegister, read, inPhase]
      exact idleRegister_eq receiver byte
  | field field value =>
      simp only [readRegister, read, inPhase]
      rfl
  | comment comment =>
      cases comment with
      | semicolon =>
          simp only [readRegister, read, inPhase]
      | parens =>
          simp only [readRegister, read, inPhase]
          split
          · rfl
          · rw [inPhase]
  | filename =>
      simp only [readRegister, read, inPhase]
      split
      · exact idleRegister_eq receiver byte
      · rfl

/-- The register holds the literal of the open field, and nothing if none is open. -/
theorem registerAfter_eq (receiver : Receiver) (raw : UInt8) :
    receiver.registerAfter receiver.phase.accumulator raw =
      (receiver.absorb raw).phase.accumulator := by
  rw [registerAfter, settleRegister_eq, readRegister_eq _ raw, absorb_eq]
  rfl

theorem accumulator_of_closed {phase : Phase} (closed : phase.open? = none) :
    phase.accumulator = .zero := by
  cases phase with
  | field field value => cases closed
  | idle | comment _ | filename => rfl

/-! ## Along a run -/

/-- The receiver after bytes have arrived, each line handed to its listener. -/
def arrive (receiver : Receiver) (arrivals : List Arrival) : Receiver :=
  arrivals.foldl
    (fun receiver arrival => receiver.push arrival.listener arrival.byte)
    receiver

/-- The register after bytes have arrived; the end of a line clears it as well. -/
def registerAlong : Receiver → Literal → List Arrival → Literal
  | _, register, [] => register
  | receiver, register, arrival :: rest =>
      registerAlong (receiver.push arrival.listener arrival.byte)
        (if Byte.isTerminator arrival.byte then .zero
          else receiver.registerAfter register arrival.byte)
        rest

theorem Coherent.arrive
    {receiver : Receiver} (coherent : receiver.Coherent)
    (arrivals : List Arrival) :
    (receiver.arrive arrivals).Coherent := by
  induction arrivals generalizing receiver with
  | nil =>
      exact coherent
  | cons arrival rest ih =>
      exact ih (coherent.push arrival.listener arrival.byte)

theorem registerAlong_eq (receiver : Receiver) (arrivals : List Arrival) :
    receiver.registerAlong receiver.phase.accumulator arrivals =
      (receiver.arrive arrivals).phase.accumulator := by
  induction arrivals generalizing receiver with
  | nil =>
      rfl
  | cons arrival rest ih =>
      have pushed :
          (if Byte.isTerminator arrival.byte then .zero
            else
              receiver.registerAfter receiver.phase.accumulator arrival.byte) =
            (receiver.push arrival.listener arrival.byte).phase.accumulator := by
        rw [push]
        split
        · rfl
        · exact receiver.registerAfter_eq arrival.byte
      rw [registerAlong, pushed, ih]
      rfl

theorem arrive_of_unterminated
    (receiver : Receiver) {arrivals : List Arrival}
    (inside : Byte.Unterminated (arrivals.map Arrival.byte)) :
    receiver.arrive arrivals = receiver.absorbAll (arrivals.map Arrival.byte) := by
  induction arrivals generalizing receiver with
  | nil =>
      rfl
  | cons arrival rest ih =>
      rw [List.map_cons, Byte.unterminated_cons] at inside
      rw [List.map_cons, absorbAll_cons,
        ← push_of_not_terminator arrival.listener receiver inside.1]
      exact ih _ inside.2

/-- The later record shows the mark of the checksum, and the sum of the earlier one. -/
structure KeepsSum (earlier later : Command) : Prop where
  checksum : later.seen.checksum = true
  sum : later.sum = earlier.sum

/-- Once the mark of the checksum is set, it stays, and the sum is complete. -/
theorem keepsSum_absorbAll
    {receiver : Receiver} (marked : receiver.command.seen.checksum = true)
    (bytes : List UInt8) :
    KeepsSum receiver.command (receiver.absorbAll bytes).command where
  checksum := by
    rw [checksum_absorbAll]
    exact checksum_stepAll_of_checksum marked bytes
  sum := sum_absorbAll_of_marked marked bytes

/--
After any bytes a receiver is coherent, and so is every record that it hands
over: it shows at most one code and holds no number for the other, exactly one
unless it is malformed, no checksum without a mark, and no filename that is too
long.  A filename is read after `M23` or `M28` alone.  The register of literals
holds that of the open field and is clear whenever no field is open, at the
latest when a line ends.  From the mark of the checksum to the end of the line
the sum stays as it is.
-/
theorem arrive_coherent
    (policy : Policy) (scale : Scale) (arrivals : List Arrival) :
    let receiver := (new policy scale).arrive arrivals
    let register := (new policy scale).registerAlong .zero arrivals
    receiver.Coherent ∧
      (receiver.command.malformed = false →
        receiver.command.gCode?.isSome = !receiver.command.mCode?.isSome) ∧
      register = receiver.phase.accumulator ∧
      (receiver.phase.open? = none → register = .zero) ∧
      (∀ terminator, Byte.isTerminator terminator = true →
        receiver.registerAfter register terminator = .zero ∧
          (receiver.absorb terminator).delivered.Coherent ∧
          ((receiver.absorb terminator).delivered.malformed = false →
            (receiver.absorb terminator).delivered.gCode?.isSome =
              !(receiver.absorb terminator).delivered.mCode?.isSome)) ∧
      (receiver.command.seen.checksum = true →
        ∀ later : List Arrival,
          Byte.Unterminated (later.map Arrival.byte) →
            KeepsSum receiver.command (receiver.arrive later).command ∧
              ∀ terminator,
                KeepsSum receiver.command
                  ((receiver.arrive later).absorb terminator).delivered) := by
  intro receiver register
  have coherent : receiver.Coherent :=
    (Coherent.of_atLineStart (atLineStart_new policy scale)).arrive arrivals
  have holds : register = receiver.phase.accumulator :=
    (new policy scale).registerAlong_eq arrivals
  refine ⟨coherent, coherent.command.oneCode, holds, ?_, ?_, ?_⟩
  · intro closed
    rw [holds, accumulator_of_closed closed]
  · intro terminator ends
    have delivered := (coherent.absorb terminator).delivered
    refine ⟨?_, delivered, delivered.oneCode⟩
    rw [holds, registerAfter_eq,
      accumulator_of_closed (receiver.open?_absorb_of_isTerminator ends)]
  · intro marked later inside
    rw [arrive_of_unterminated receiver inside]
    refine ⟨keepsSum_absorbAll marked _, ?_⟩
    intro terminator
    have kept :=
      keepsSum_absorbAll marked (later.map Arrival.byte ++ [terminator])
    rw [absorbAll_append] at kept
    exact
      { checksum :=
          (project_delivered (·.seen.checksum) (fun _ _ => rfl) _).trans
            kept.checksum
        sum := (project_delivered (·.sum) (fun _ _ => rfl) _).trans kept.sum }

end Receiver

end GcodeLink
