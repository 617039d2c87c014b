/-!
# Replies to the host

Every reply is one line of text on the link, written without its terminator.
-/

namespace GcodeLink

/-- A reply to the host. -/
inductive Reply where
  /-- The line was dealt with. -/
  | ok
  /-- Send again from this line number on. -/
  | resend (number : UInt32)
  /-- The checksum of the received bytes is this one. -/
  | expectedChecksum (sum : UInt8)
  /-- The next line must carry this number. -/
  | expectedLineNumber (number : UInt32)
  /-- The file is complete. -/
  | doneSavingFile
  /-- A line, or the end of the file, could not be stored. -/
  | writeFailed
  /-- The file could not be created. -/
  | openFailed
  /-- A field of the line could not be converted. -/
  | numberOverflow
  /-- The line was longer than a buffer. -/
  | lineTooLong
  deriving DecidableEq, Repr

/-- The text of a reply on the link. -/
def Reply.text : Reply → String
  | .ok => "ok"
  | .resend number => "rs " ++ toString number.toNat
  | .expectedChecksum sum => "Expected checksum " ++ toString sum.toNat
  | .expectedLineNumber number => "Expected line number " ++ toString number.toNat
  | .doneSavingFile => "Done saving file"
  | .writeFailed => "error writing to file"
  | .openFailed => "error opening file"
  | .numberOverflow => "error: number overflow"
  | .lineTooLong => "error: line too long"

end GcodeLink
