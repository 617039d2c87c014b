import Mathlib.Data.List.TakeWhile
import GcodeLink.Proofs.Receiver.Absorb

/-!
# Stepping through the parts of a line

The parts of a line are cut with as much lookahead as one likes, and the
receiver has none.  Still they agree: a receiver that steps through a line and
its terminator ends with the record into which the parts were taken one after
the other.  The induction is on the cut.  Between two parts the receiver is
idle in effect: the field or the filename before is still open, but the byte
that follows closes it first.
-/

namespace GcodeLink

/-- The byte after a longest run stops the run. -/
theorem stops_of_dropWhile
    {test : UInt8 → Bool} {bytes tail : List UInt8} {next : UInt8}
    (after : bytes.dropWhile test = next :: tail) :
    test next = false := by
  have nonempty : bytes.dropWhile test ≠ [] := by
    simp [after]
  have stopped := List.head_dropWhile_not test nonempty
  simpa only [after, List.head_cons] using stopped

/-- A run that nothing stops is the whole. -/
theorem takeWhile_of_dropWhile
    {test : UInt8 → Bool} {bytes : List UInt8}
    (after : bytes.dropWhile test = []) :
    bytes.takeWhile test = bytes :=
  List.takeWhile_eq_self_iff.mpr (List.dropWhile_eq_nil_iff.mp after)

/-- Before a byte that stops it, a longest run is followed by some byte that does. -/
theorem exists_cons_dropWhile
    {test : UInt8 → Bool} {stop : UInt8} (stops : test stop = false)
    (bytes rest : List UInt8) :
    ∃ next tail,
      bytes.dropWhile test ++ stop :: rest = next :: tail ∧
        test next = false := by
  cases after : bytes.dropWhile test with
  | nil =>
      exact ⟨stop, rest, rfl, stops⟩
  | cons next tail =>
      exact ⟨next, tail ++ stop :: rest, rfl, stops_of_dropWhile after⟩

/-- A longest run of bytes and what follows it are put together again. -/
theorem append_eq_of_dropWhile
    {test : UInt8 → Bool} {bytes rest follows : List UInt8}
    (after : bytes.dropWhile test ++ rest = follows) :
    bytes ++ rest = bytes.takeWhile test ++ follows := by
  rw [← after, ← List.append_assoc, List.takeWhile_append_dropWhile]

/-- Whether what follows starts with a letter shows at the next byte. -/
theorem Part.startsWithLetter_eq
    {after rest tail : List UInt8} {stop next : UInt8}
    (noLetter : Byte.isCapital (Byte.fold stop) = false)
    (follows : after ++ stop :: rest = next :: tail) :
    Part.startsWithLetter after = Byte.isCapital (Byte.fold next) := by
  cases after with
  | nil =>
      rw [List.nil_append, List.cons.injEq] at follows
      rw [← follows.1, noLetter]
      rfl
  | cons first others =>
      rw [List.cons_append, List.cons.injEq] at follows
      rw [← follows.1]
      rfl

namespace Receiver

variable {receiver : Receiver}

/-- The receiver that took in a field and is idle, or about to read a name. -/
def afterField
    (receiver : Receiver) (opener : UInt8) (body : List UInt8) (named : Bool) :
    Receiver :=
  let command := receiver.command.take receiver.scale (.field opener body)
  if named then
    { receiver with
      phase := .filename
      command := { command with filename := command.filename.clear } }
  else
    { receiver with phase := .idle, command }

/-- The receiver that took in a filename after its field. -/
def afterName (receiver : Receiver) (name : List UInt8) : Receiver :=
  { receiver with
    phase := .idle
    command :=
      { receiver.command with
        filename := receiver.command.filename.pushAll name } }

/-- A field is taken in at its place, and the byte after it is read by `afterField`. -/
theorem stepAll_field
    (idle : receiver.phase = .idle)
    {opener next : UInt8} {body : List UInt8}
    (opens : Byte.opensField (Byte.fold opener) = true)
    (all : ∀ byte ∈ body, Part.isBody byte = true)
    (closes : Part.isBody next = false) (tail : List UInt8) :
    receiver.stepAll (opener :: (body ++ next :: tail)) =
      (receiver.afterField opener body
        (Part.takesName opener body &&
          Byte.isCapital (Byte.fold next))).stepAll (next :: tail) := by
  have closing : Byte.endsField (Byte.fold next) = true := by
    simpa [Part.isBody] using closes
  have opened :
      receiver.step opener =
        receiver.openField (.ofByte (Byte.fold opener)) := by
    rw [step_idle idle, readIdle, if_pos opens]
  rw [stepAll_cons, stepAll_append, opened,
    stepAll_body (phase_openField receiver _) all, stepAll_cons,
    step_of_endsField rfl closing, settleField_eq, stepAll_cons,
    Part.takesName_eq, afterField, Command.take_field]
  rfl

/-- A filename is taken in at its place, and the byte after it finds the receiver idle. -/
theorem stepAll_filename
    (inName : receiver.phase = .filename)
    {next : UInt8} {name : List UInt8}
    (all : ∀ byte ∈ name, Part.isName byte = true)
    (closes : Part.isName next = false) (tail : List UInt8) :
    receiver.stepAll (name ++ next :: tail) =
      (receiver.afterName name).stepAll (next :: tail) := by
  have closing : Byte.endsFilename next = true := by
    simpa [Part.isName] using closes
  rw [stepAll_append, stepAll_name inName all, stepAll_cons,
    step_of_endsFilename (by exact inName) closing, stepAll_cons, afterName]

/-- A comment between parentheses changes nothing. -/
theorem stepAll_openParen
    (idle : receiver.phase = .idle)
    {inside : List UInt8}
    (all : ∀ byte ∈ inside, Part.isInside byte = true) :
    receiver.stepAll (Byte.openParen :: inside) =
      { receiver with phase := .comment .parens } := by
  have opened :
      receiver.step Byte.openParen =
        { receiver with phase := .comment .parens } := by
    rw [step_idle idle]
    rfl
  rw [stepAll_cons, opened]
  exact stepAll_inside rfl all

/-- A comment up to the end of the line changes nothing. -/
theorem stepAll_openSemicolon
    (idle : receiver.phase = .idle) (bytes : List UInt8) :
    receiver.stepAll (Byte.semicolon :: bytes) =
      { receiver with phase := .comment .semicolon } := by
  have opened :
      receiver.step Byte.semicolon =
        { receiver with phase := .comment .semicolon } := by
    rw [step_idle idle]
    rfl
  rw [stepAll_cons, opened]
  exact stepAll_semicolon rfl bytes

/-- A byte between the parts changes nothing. -/
theorem step_blank
    (idle : receiver.phase = .idle) {raw : UInt8}
    (opens : ¬ Byte.opensField (Byte.fold raw) = true)
    (semicolon : ¬ (raw == Byte.semicolon) = true)
    (paren : ¬ (raw == Byte.openParen) = true) :
    receiver.step raw = receiver := by
  rw [beq_iff_eq] at semicolon paren
  rw [step_idle idle, readIdle, if_neg opens, if_neg (by simpa using semicolon),
    if_neg (by simpa using paren), ← idle]

end Receiver

/-- Stepping through a line and its terminator takes in its parts in order. -/
theorem Receiver.command_stepAll_line
    {receiver : Receiver} (idle : receiver.phase = .idle)
    {bytes : List UInt8} {terminator : UInt8}
    (ends : Byte.isTerminator terminator = true) :
    (receiver.stepAll (bytes ++ [terminator])).command =
      receiver.command.takeAll receiver.scale (Part.ofBytes bytes) := by
  have stopsBody : Part.isBody terminator = false := by
    simp [Part.isBody, Byte.endsField, ends]
  have stopsName : Part.isName terminator = false := by
    simp [Part.isName, Byte.endsFilename_of_isTerminator ends]
  have noLetter : Byte.isCapital (Byte.fold terminator) = false := by
    rw [Byte.fold_of_isTerminator ends, Byte.isCapital_of_isTerminator ends]
  fun_induction Part.ofBytes bytes generalizing receiver
  case case1 =>
    rw [List.nil_append, stepAll_cons, stepAll_nil, step_idle idle,
      Byte.fold_of_isTerminator ends, readIdle_of_isTerminator receiver ends]
    rfl
  case case2 byte rest opens body after named ih =>
    change (Part.takesName byte (rest.takeWhile Part.isBody) &&
      Part.startsWithLetter (rest.dropWhile Part.isBody)) = true at named
    obtain ⟨next, tail, follows, closes⟩ :=
      exists_cons_dropWhile stopsBody rest []
    obtain ⟨last, others, continues, ends⟩ :=
      exists_cons_dropWhile stopsName after []
    rw [List.cons_append, append_eq_of_dropWhile follows,
      stepAll_field idle opens (fun _ => List.mem_takeWhile_imp) closes,
      ← Part.startsWithLetter_eq noLetter follows, named, ← follows,
      append_eq_of_dropWhile continues,
      stepAll_filename rfl (fun _ => List.mem_takeWhile_imp) ends,
      ← continues, ih rfl]
    rfl
  case case3 byte rest opens body after unnamed ih =>
    rw [Bool.not_eq_true] at unnamed
    change (Part.takesName byte (rest.takeWhile Part.isBody) &&
      Part.startsWithLetter (rest.dropWhile Part.isBody)) = false at unnamed
    obtain ⟨next, tail, follows, closes⟩ :=
      exists_cons_dropWhile stopsBody rest []
    rw [List.cons_append, append_eq_of_dropWhile follows,
      stepAll_field idle opens (fun _ => List.mem_takeWhile_imp) closes,
      ← Part.startsWithLetter_eq noLetter follows, unnamed, ← follows,
      ih rfl]
    rfl
  case case4 byte rest opens semicolon =>
    rw [beq_iff_eq] at semicolon
    rw [semicolon, List.cons_append, stepAll_openSemicolon idle]
    rfl
  case case5 byte rest opens semicolon paren ih =>
    rw [beq_iff_eq] at paren
    have all : ∀ byte ∈ rest.takeWhile Part.isInside, Part.isInside byte = true :=
      fun _ => List.mem_takeWhile_imp
    have text :
        rest ++ [terminator] =
          rest.takeWhile Part.isInside ++
            (rest.dropWhile Part.isInside ++ [terminator]) :=
      append_eq_of_dropWhile rfl
    rw [paren, List.cons_append, text, ← List.cons_append, stepAll_append,
      stepAll_openParen idle all]
    cases after : rest.dropWhile Part.isInside with
    | nil =>
        -- the comment is still open at the end of the line
        have inside : Part.isInside terminator = true := by
          simp [Part.isInside, (Byte.ne_of_isTerminator ends).2.2.1]
        rw [List.nil_append, stepAll_cons, step_of_isInside rfl inside]
        simp [Part.ofBytes, Command.take]
    | cons close others =>
        have closes := stops_of_dropWhile after
        rw [Part.isInside, bne_eq_false_iff_eq] at closes
        rw [closes, List.cons_append, stepAll_cons, step_closeParen rfl]
        rw [after, List.drop_one, List.tail_cons] at ih
        rw [ih rfl]
        rfl
  case case6 byte rest opens semicolon paren ih =>
    rw [List.cons_append, stepAll_cons, step_blank idle opens semicolon paren,
      ih idle]
    rfl

/-! ## Cutting at an asterisk -/

namespace Part

theorem takeWhile_append_stop
    {test : UInt8 → Bool} {stop : UInt8} (stops : test stop = false)
    (bytes rest : List UInt8) :
    (bytes ++ stop :: rest).takeWhile test = bytes.takeWhile test := by
  rw [List.takeWhile_append]
  split
  · next whole =>
      rw [List.takeWhile_cons_of_neg (by simp [stops]), List.append_nil]
      exact ((List.takeWhile_prefix test).eq_of_length whole).symm
  · rfl

theorem dropWhile_append_stop
    {test : UInt8 → Bool} {stop : UInt8} (stops : test stop = false)
    (bytes rest : List UInt8) :
    (bytes ++ stop :: rest).dropWhile test =
      bytes.dropWhile test ++ stop :: rest := by
  rw [List.dropWhile_append]
  split
  · next none =>
      rw [List.isEmpty_iff] at none
      rw [none, List.dropWhile_cons_of_neg (by simp [stops]), List.nil_append]
  · rfl

theorem startsWithLetter_append_stop
    {stop : UInt8} (noLetter : Byte.isCapital (Byte.fold stop) = false)
    (bytes rest : List UInt8) :
    startsWithLetter (bytes ++ stop :: rest) = startsWithLetter bytes := by
  cases bytes with
  | nil =>
      exact noLetter
  | cons first others =>
      rfl

/-- A run of bytes that was stopped does not go on into what follows. -/
theorem takeWhile_append_of_stopped
    {test : UInt8 → Bool} {bytes : List UInt8}
    (stopped : bytes.dropWhile test ≠ []) (rest : List UInt8) :
    (bytes ++ rest).takeWhile test = bytes.takeWhile test := by
  rw [List.takeWhile_append, if_neg]
  intro whole
  apply stopped
  have apart := List.takeWhile_append_dropWhile (p := test) (l := bytes)
  rw [(List.takeWhile_prefix test).eq_of_length whole] at apart
  exact List.append_right_eq_self.mp apart

theorem dropWhile_append_of_stopped
    {test : UInt8 → Bool} {bytes : List UInt8}
    (stopped : bytes.dropWhile test ≠ []) (rest : List UInt8) :
    (bytes ++ rest).dropWhile test = bytes.dropWhile test ++ rest := by
  rw [List.dropWhile_append, if_neg]
  rw [List.isEmpty_iff]
  exact stopped

end Part

namespace Receiver

variable {receiver : Receiver}

/-- A field opens no comment, so that one open at the end was opened after the field. -/
theorem isComment_stepAll_field
    (idle : receiver.phase = .idle)
    {opener : UInt8} (opens : Byte.opensField (Byte.fold opener) = true)
    (rest : List UInt8) :
    (receiver.stepAll (opener :: rest)).phase.isComment =
      ((receiver.afterField opener (rest.takeWhile Part.isBody)
        (Part.takesName opener (rest.takeWhile Part.isBody) &&
          Part.startsWithLetter (rest.dropWhile Part.isBody))).stepAll
        (rest.dropWhile Part.isBody)).phase.isComment := by
  have all : ∀ byte ∈ rest.takeWhile Part.isBody, Part.isBody byte = true :=
    fun _ => List.mem_takeWhile_imp
  cases after : rest.dropWhile Part.isBody with
  | nil =>
      have opened :
          receiver.step opener =
            receiver.openField (.ofByte (Byte.fold opener)) := by
        rw [step_idle idle, readIdle, if_pos opens]
      rw [takeWhile_of_dropWhile after] at all ⊢
      rw [stepAll_cons, opened,
        stepAll_body (phase_openField receiver _) all,
        Part.startsWithLetter, Bool.and_false]
      rfl
  | cons next tail =>
      have text := List.takeWhile_append_dropWhile (p := Part.isBody) (l := rest)
      rw [after] at text
      conv_lhs => rw [← text]
      rw [stepAll_field idle opens all (stops_of_dropWhile after)]
      rfl

/-- A filename opens no comment either. -/
theorem isComment_stepAll_filename
    (inName : receiver.phase = .filename) (rest : List UInt8) :
    (receiver.stepAll rest).phase.isComment =
      ((receiver.afterName (rest.takeWhile Part.isName)).stepAll
        (rest.dropWhile Part.isName)).phase.isComment := by
  have all : ∀ byte ∈ rest.takeWhile Part.isName, Part.isName byte = true :=
    fun _ => List.mem_takeWhile_imp
  cases after : rest.dropWhile Part.isName with
  | nil =>
      rw [takeWhile_of_dropWhile after] at all
      rw [stepAll_name inName all, inName]
      rfl
  | cons next tail =>
      have text := List.takeWhile_append_dropWhile (p := Part.isName) (l := rest)
      rw [after] at text
      conv_lhs => rw [← text]
      rw [stepAll_filename inName all (stops_of_dropWhile after)]

/-- A comment between parentheses that is not open at the end was closed. -/
theorem stepAll_closed_comment
    (idle : receiver.phase = .idle) {rest : List UInt8}
    (outside :
      (receiver.stepAll (Byte.openParen :: rest)).phase.isComment = false) :
    rest.dropWhile Part.isInside ≠ [] ∧
      receiver.stepAll (Byte.openParen :: rest) =
        receiver.stepAll ((rest.dropWhile Part.isInside).drop 1) := by
  have all : ∀ byte ∈ rest.takeWhile Part.isInside, Part.isInside byte = true :=
    fun _ => List.mem_takeWhile_imp
  cases after : rest.dropWhile Part.isInside with
  | nil =>
      rw [takeWhile_of_dropWhile after] at all
      rw [stepAll_openParen idle all] at outside
      cases outside
  | cons close others =>
      have closes := stops_of_dropWhile after
      rw [Part.isInside, bne_eq_false_iff_eq] at closes
      have text := List.takeWhile_append_dropWhile (p := Part.isInside) (l := rest)
      rw [after, closes] at text
      constructor
      · exact List.cons_ne_nil close others
      · rw [← text, ← List.cons_append, stepAll_append,
          stepAll_openParen idle all, stepAll_cons, step_closeParen rfl, ← idle]
        rfl

end Receiver

namespace Part

/-- A line that opens with a field that a filename follows. -/
theorem ofBytes_of_named
    {opener : UInt8} {rest : List UInt8}
    (opens : Byte.opensField (Byte.fold opener) = true)
    (named :
      (takesName opener (rest.takeWhile isBody) &&
        startsWithLetter (rest.dropWhile isBody)) = true) :
    ofBytes (opener :: rest) =
      field opener (rest.takeWhile isBody) ::
        filename ((rest.dropWhile isBody).takeWhile isName) ::
          ofBytes ((rest.dropWhile isBody).dropWhile isName) := by
  rw [ofBytes, if_pos opens]
  exact if_pos named

/-- A line that opens with any other field. -/
theorem ofBytes_of_unnamed
    {opener : UInt8} {rest : List UInt8}
    (opens : Byte.opensField (Byte.fold opener) = true)
    (unnamed :
      (takesName opener (rest.takeWhile isBody) &&
        startsWithLetter (rest.dropWhile isBody)) = false) :
    ofBytes (opener :: rest) =
      field opener (rest.takeWhile isBody) ::
        ofBytes (rest.dropWhile isBody) := by
  rw [ofBytes, if_pos opens]
  exact if_neg (Bool.eq_false_iff.mp unnamed)

/--
Outside comments an asterisk cuts a line in two, whose parts are cut
independently: it closes what is open, and no filename can follow.
-/
theorem ofBytes_append_asterisk
    {receiver : Receiver} (idle : receiver.phase = .idle)
    {front : List UInt8}
    (outside : (receiver.stepAll front).phase.isComment = false)
    (back : List UInt8) :
    ofBytes (front ++ Byte.asterisk :: back) =
      ofBytes front ++ ofBytes (Byte.asterisk :: back) := by
  have stopsBody : isBody Byte.asterisk = false := by
    decide
  have stopsName : isName Byte.asterisk = false := by
    decide
  have noLetter : Byte.isCapital (Byte.fold Byte.asterisk) = false := by
    decide
  fun_induction ofBytes front generalizing receiver
  case case1 =>
    rfl
  case case2 byte rest opens body after named ih =>
    change (takesName byte (rest.takeWhile isBody) &&
      startsWithLetter (rest.dropWhile isBody)) = true at named
    rw [Receiver.isComment_stepAll_field idle opens, named,
      Receiver.isComment_stepAll_filename rfl] at outside
    have goesOn :
        (takesName byte ((rest ++ Byte.asterisk :: back).takeWhile isBody) &&
          startsWithLetter
            ((rest ++ Byte.asterisk :: back).dropWhile isBody)) = true := by
      rw [takeWhile_append_stop stopsBody, dropWhile_append_stop stopsBody,
        startsWithLetter_append_stop noLetter, named]
    rw [List.cons_append, ofBytes_of_named opens goesOn,
      takeWhile_append_stop stopsBody, dropWhile_append_stop stopsBody,
      takeWhile_append_stop stopsName, dropWhile_append_stop stopsName,
      ih rfl outside]
    rfl
  case case3 byte rest opens body after unnamed ih =>
    rw [Bool.not_eq_true] at unnamed
    change (takesName byte (rest.takeWhile isBody) &&
      startsWithLetter (rest.dropWhile isBody)) = false at unnamed
    rw [Receiver.isComment_stepAll_field idle opens, unnamed] at outside
    have goesOn :
        (takesName byte ((rest ++ Byte.asterisk :: back).takeWhile isBody) &&
          startsWithLetter
            ((rest ++ Byte.asterisk :: back).dropWhile isBody)) = false := by
      rw [takeWhile_append_stop stopsBody, dropWhile_append_stop stopsBody,
        startsWithLetter_append_stop noLetter, unnamed]
    rw [List.cons_append, ofBytes_of_unnamed opens goesOn,
      takeWhile_append_stop stopsBody, dropWhile_append_stop stopsBody,
      ih rfl outside]
    rfl
  case case4 byte rest opens semicolon =>
    rw [beq_iff_eq] at semicolon
    rw [semicolon, Receiver.stepAll_openSemicolon idle] at outside
    cases outside
  case case5 byte rest opens semicolon paren ih =>
    have opening := beq_iff_eq.mp paren
    rw [opening] at outside
    obtain ⟨stopped, closed⟩ := Receiver.stepAll_closed_comment idle outside
    rw [closed] at outside
    obtain ⟨close, others, after⟩ := List.exists_cons_of_ne_nil stopped
    rw [List.cons_append, ofBytes, if_neg opens, if_neg semicolon, if_pos paren,
      takeWhile_append_of_stopped stopped, dropWhile_append_of_stopped stopped]
    simp only [after, List.drop_one, List.cons_append, List.tail_cons,
      List.take_succ_cons, List.take_zero] at ih outside ⊢
    rw [ih idle outside]
  case case6 byte rest opens semicolon paren ih =>
    rw [Receiver.stepAll_cons, Receiver.step_blank idle opens semicolon paren]
      at outside
    rw [List.cons_append, ofBytes, if_neg opens, if_neg semicolon, if_neg paren,
      ih idle outside]
    rfl

end Part

end GcodeLink
