import GcodeLink.Command

/-!
# The parts of a line

A line can be read as a whole as well: cut into its parts from left to right,
and then taken in part by part.  A part is a field with its body, a filename, a
comment, or a byte between them.  The texts of the parts put together are the
line.

The cut looks ahead as far as it likes, and a field takes effect at its own
place instead of at the byte that closes it.
-/

namespace GcodeLink

/-- A part of a line. -/
inductive Part where
  /-- A field: the byte that opens it and the bytes up to the one that closes it. -/
  | field (opener : UInt8) (body : List UInt8)
  /-- The bytes of a filename. -/
  | filename (name : List UInt8)
  /-- A comment with the bytes that open and close it. -/
  | comment (text : List UInt8)
  /-- A byte between the other parts. -/
  | blank (byte : UInt8)
  deriving DecidableEq, Repr

namespace Part

/-- The bytes of a part. -/
def text : Part → List UInt8
  | field opener body => opener :: body
  | filename name => name
  | comment text => text
  | blank byte => [byte]

/-- A byte that an open field goes on with. -/
def isBody (byte : UInt8) : Bool :=
  !Byte.endsField (Byte.fold byte)

/-- A byte that a filename goes on with. -/
def isName (byte : UInt8) : Bool :=
  !Byte.endsFilename byte

/-- A byte that a comment between parentheses goes on with. -/
def isInside (byte : UInt8) : Bool :=
  byte != Byte.closeParen

/-- The literal that a body spells. -/
def literal (body : List UInt8) : Literal :=
  Literal.zero.pushAll body

/-- A field with this opener and body takes a filename, if a letter follows it. -/
def takesName (opener : UInt8) (body : List UInt8) : Bool :=
  match Field.ofByte (Byte.fold opener), ((literal body).fit .one : Except Fault UInt16) with
  | .m, .ok code => takesFilename code
  | _, _ => false

/-- The bytes start with a letter. -/
def startsWithLetter : List UInt8 → Bool
  | [] => false
  | byte :: _ => Byte.isCapital (Byte.fold byte)

/-- Cut a line without its terminator into its parts. -/
def ofBytes : List UInt8 → List Part
  | [] => []
  | byte :: rest =>
      if Byte.opensField (Byte.fold byte) then
        let body := rest.takeWhile isBody
        let after := rest.dropWhile isBody
        if takesName byte body && startsWithLetter after then
          field byte body :: filename (after.takeWhile isName) ::
            ofBytes (after.dropWhile isName)
        else
          field byte body :: ofBytes after
      else if byte == Byte.semicolon then
        [comment (byte :: rest)]
      else if byte == Byte.openParen then
        comment (byte :: (rest.takeWhile isInside ++ (rest.dropWhile isInside).take 1)) ::
          ofBytes ((rest.dropWhile isInside).drop 1)
      else
        blank byte :: ofBytes rest
  termination_by bytes => bytes.length
  decreasing_by
    all_goals
      have shorter (test : UInt8 → Bool) (bytes : List UInt8) :
          (bytes.dropWhile test).length ≤ bytes.length :=
        (List.dropWhile_suffix test).length_le
      have body := shorter isBody rest
      have name := shorter isName (rest.dropWhile isBody)
      have inside := shorter isInside rest
      simp only [List.length_cons, List.length_drop]
      omega

/-- The texts of the parts put together are the line. -/
theorem flatMap_text_ofBytes (bytes : List UInt8) :
    (ofBytes bytes).flatMap text = bytes := by
  fun_induction ofBytes bytes with
  | case1 => rfl
  | case2 byte rest _ body after _ ih =>
    simp only [List.flatMap_cons, text, ih, List.takeWhile_append_dropWhile]
    simp [body, after]
  | case3 byte rest _ body after _ ih =>
    simp only [List.flatMap_cons, text, ih]
    simp [body, after]
  | case4 => simp [text]
  | case5 byte rest _ _ _ ih =>
    rw [List.flatMap_cons, ih, text, List.cons_append, List.append_assoc,
      List.take_append_drop, List.takeWhile_append_dropWhile]
  | case6 byte rest _ _ _ ih => simp [text, ih]

/-- The part is a checksum field. -/
def isMark : Part → Bool
  | field opener _ => opener == Byte.asterisk
  | _ => false

/-- The bytes that the checksum of a line covers, up to its mark if it has one. -/
def covered (includesMark : Bool) : List Part → List UInt8
  | [] => []
  | part :: rest =>
      if part.isMark then
        if includesMark then [Byte.asterisk] else []
      else
        part.text ++ covered includesMark rest

end Part

namespace Command

/-- Take in one part of a line. -/
def take (scale : Scale) (command : Command) : Part → Command
  | .field opener body =>
      let field := Field.ofByte (Byte.fold opener)
      let started := command.start field
      match started.store scale field (Part.literal body) with
      | .ok stored => stored
      | .error _ => started.drop field
  | .filename name => { command with filename := command.filename.clear.pushAll name }
  | .comment _ | .blank _ => command

/-- Take in the parts of a line in order. -/
def takeAll (scale : Scale) (command : Command) (parts : List Part) : Command :=
  parts.foldl (take scale) command

@[simp]
theorem takeAll_nil (scale : Scale) (command : Command) : command.takeAll scale [] = command :=
  rfl

@[simp]
theorem takeAll_cons (scale : Scale) (command : Command) (part : Part) (rest : List Part) :
    command.takeAll scale (part :: rest) = (command.take scale part).takeAll scale rest := rfl

end Command

end GcodeLink
